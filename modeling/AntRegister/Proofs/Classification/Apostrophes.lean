import AntRegister.Classification.Basic
import AntRegister.Proofs.Sequence
import AntRegister.Proofs.Title.Apostrophes
/-! Issues with plain apostrophes. Writing the apostrophes plain settles what an issue reads, and it
decides neither whether the issue is skipped nor whether it is refused. -/

namespace AntRegister

theorem Title.plainApostrophes_plainApostrophes (s : String) :
    plainApostrophes (plainApostrophes s) = plainApostrophes s :=
  plainApostrophes_eq_self (not_mem_plainApostrophes s)

theorem Issue.plain_plain (i : Issue) : i.plain.plain = i.plain := by
  simp only [plain, Title.plainApostrophes_plainApostrophes]

/-- The same error about the plain spelling of the title. -/
def ClassificationError.plain : ClassificationError → ClassificationError
  | .untitled title => .untitled (Title.plainApostrophes title)

namespace Verdict

def isSkipped (v : Verdict) : Bool := v == .skipped

theorem isSkipped_ofContent (matcher : Matcher) (content : String) (i : Issue) :
    (ofContent matcher content i).isSkipped = false := by
  unfold ofContent ofClosed
  split
  · split <;> rfl
  · rfl

/-- The verdict on a plain issue is the one on what it reads plainly. -/
theorem ofIssue_plain (matcher : Matcher) (mode : Mode) (i : Issue) :
    ofIssue matcher mode i.plain =
      if i.closed ∧ i.closedAt = none then .ok .skipped
      else
        match i.content? with
        | some content => .ok (ofContent matcher (Title.plainApostrophes content) i)
        | none =>
          if mode = .strict ∧ i.hasLabel Issue.autogenerated then
            .error (.untitled (Title.plainApostrophes i.title))
          else .ok .skipped := by
  rw [ofIssue, Issue.content?_plain]
  cases i.content? <;> rfl

theorem isSkipped_ofIssue_plain (matcher : Matcher) (mode : Mode) (i : Issue) :
    (ofIssue matcher mode i.plain).map isSkipped =
      ((ofIssue matcher mode i).map isSkipped).mapError .plain := by
  rw [ofIssue_plain, ofIssue]
  split
  · rfl
  · cases i.content? with
    | some content =>
      have hplain := isSkipped_ofContent matcher (Title.plainApostrophes content) i
      have hspelled := isSkipped_ofContent matcher content i
      simp only [Except.map, Except.mapError, hplain, hspelled]
    | none =>
      dsimp only
      split <;> rfl

end Verdict

theorem map_skipped_classify (issues : List Issue) (matcher : Matcher) (mode : Mode) :
    (classify issues matcher mode).map (fun c => c.skipped) =
      ((issues.mapM (Verdict.ofIssue matcher mode)).map (List.map Verdict.isSkipped)).map
        (List.count true) := by
  rw [classify]
  cases issues.mapM (Verdict.ofIssue matcher mode) with
  | error e => rfl
  | ok vs =>
    refine congrArg Except.ok ?_
    rw [Classification.ofVerdicts, List.count_eq_countP, List.count_eq_countP, List.countP_map]
    refine List.countP_congr fun v _ => ?_
    simp [Verdict.isSkipped]

theorem map_skipped_classify_plain (issues : List Issue) (matcher : Matcher) (mode : Mode) :
    (classify (issues.map Issue.plain) matcher mode).map (fun c => c.skipped) =
      ((classify issues matcher mode).map fun c => c.skipped).mapError .plain := by
  have hverdicts :=
    map_mapM_eq_mapError (Verdict.isSkipped_ofIssue_plain matcher mode) issues
  rw [map_skipped_classify, map_skipped_classify, List.mapM_map]
  change (Except.map _ (List.mapM (fun i => Verdict.ofIssue matcher mode i.plain) issues)).map _ = _
  rw [hverdicts]
  cases issues.mapM (Verdict.ofIssue matcher mode) <;> rfl

/-- Writing apostrophes plain replaces each U+2019 by the one of ASCII. A title carries the same
suggestion, written plain, whether that is done before it is read or after. Doing so twice changes
nothing more, and it changes nothing but title and body. As many issues are skipped as without it,
the same ones, and the same issue is refused. -/
theorem plain_keeps_skipped_and_refused :
    (∀ s, Title.plainApostrophes s =
      .ofList (s.toList.map fun c => if c = '\u2019' then '\'' else c)) ∧
    (∀ title, Title.content? (Title.plainApostrophes title) =
      (Title.content? title).map Title.plainApostrophes) ∧
    (∀ i : Issue, i.plain.plain = i.plain ∧
      '\u2019' ∉ i.plain.title.toList ∧ '\u2019' ∉ i.plain.body.toList ∧
      i.plain = { i with
        title := Title.plainApostrophes i.title, body := Title.plainApostrophes i.body }) ∧
    ∀ matcher mode,
      (∀ i, (Verdict.ofIssue matcher mode i.plain).map Verdict.isSkipped =
        ((Verdict.ofIssue matcher mode i).map Verdict.isSkipped).mapError .plain) ∧
      ∀ issues, (classify (issues.map Issue.plain) matcher mode).map (fun c => c.skipped) =
        ((classify issues matcher mode).map fun c => c.skipped).mapError .plain := by
  refine ⟨fun _ => rfl, Title.content?_plainApostrophes, fun i => ⟨i.plain_plain, ?_, ?_, rfl⟩,
    fun matcher mode => ⟨Verdict.isSkipped_ofIssue_plain matcher mode,
      fun issues => map_skipped_classify_plain issues matcher mode⟩⟩
  · exact Title.not_mem_plainApostrophes i.title
  · exact Title.not_mem_plainApostrophes i.body

end AntRegister
