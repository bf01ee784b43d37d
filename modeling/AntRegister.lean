import AntRegister.ContentHash
import AntRegister.Text.Blank
import AntRegister.Text.Lines
import AntRegister.Calendar.Reading
import AntRegister.Json.Printer
import AntRegister.Json.Reader
import AntRegister.Json.Record
import AntRegister.Title
import AntRegister.Ant.Document
import AntRegister.Issue.Document
import AntRegister.Classification.Document
import AntRegister.Release.Basic
import AntRegister.Legacy.Pool
import AntRegister.History.LogSearch
import AntRegister.Sql.Script
import AntRegister.Listing
import AntRegister.Integrity
import AntRegister.Release.Sheet
import AntRegister.World
import AntRegister.OutputFolder
import AntRegister.Toml.Reader
import AntRegister.Settings.Load
import AntRegister.Main
import AntRegister.Proofs.Sql.Lexing
import AntRegister.Proofs.Sql.Keys
import AntRegister.Proofs.Classification.Partition
import AntRegister.Proofs.Provenance
import AntRegister.Proofs.Overlap
import AntRegister.Proofs.Command.Report
import AntRegister.Proofs.Sql.References
import AntRegister.Proofs.Command.Checking
import AntRegister.Proofs.Command.Rounds
import AntRegister.Proofs.Command.Frame
import AntRegister.Proofs.Command.Breakdown
import AntRegister.Proofs.Classification.Modes
import AntRegister.Proofs.Integrity.Report
import AntRegister.Proofs.Command.Spelling
import AntRegister.Proofs.Command.Listing
import AntRegister.Proofs.Latest.Merge
import AntRegister.Proofs.Title.EmptyPair
import AntRegister.Proofs.ContentHash
import AntRegister.Proofs.Sql.Reordering
import AntRegister.Proofs.Calendar.Stamp
import AntRegister.Proofs.History.Oldest
import AntRegister.Proofs.Classification.Apostrophes
import AntRegister.Proofs.Sql.Assembly
import AntRegister.Proofs.Sql.Escaping
import AntRegister.Proofs.Legacy.Lookups
import AntRegister.Proofs.Documents
import AntRegister.Proofs.Listing
import AntRegister.Proofs.Command.Answers
import AntRegister.Proofs.Settings.InEffect
