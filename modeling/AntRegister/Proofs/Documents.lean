import AntRegister.Issue.Document
import AntRegister.Proofs.Calendar.Text
import AntRegister.Proofs.Json.Record
import AntRegister.Site.Document
/-! Documents are read as what they were written for: the site data, in which what an ant lacks is
left out, and the issues, in which a date that is lacking is null. -/

namespace AntRegister

open Calendar (Instant)
open Json (AllHeld Held)

namespace Calendar.Instant

theorem ofJson?_toJson (i : Instant) : ofJson? i.toJson = some i := by
  rw [toJson, ofJson?, Json.asText?, Option.bind_eq_bind, Option.bind_some, i.read?_text]

theorem toJson_ne_null (i : Instant) : i.toJson ≠ .null := nofun

theorem held_toJson (i : Instant) : Held i.toJson := .text i.text

end Calendar.Instant

namespace SiteAnt

variable (a : SiteAnt)

theorem held_toJson : Held a.toJson :=
  .object ((((AllHeld.cons (.text _) .nil).append (.memberIf .text _ _)).append
    (.memberIf .bool _ _)).append (.memberIf .bool _ _) |>.append
    (.memberIf Instant.held_toJson _ _))

/-- Of the members of an ant only the content is always there. -/
theorem member?_toJson :
    a.toJson.member? "ant" = some (.text a.content) ∧
      a.toJson.member? "suggestedContent" = a.suggested.map .text ∧
      a.toJson.member? "legacy" = a.legacy.map .bool ∧
      a.toJson.member? "tweeted" = a.tweeted.map .bool ∧
      a.toJson.member? "tweetedAt" = a.tweetedAt.map Instant.toJson := by
  simp [toJson, Json.member?, List.lookup_append, List.lookup_cons, Json.lookup_memberIf_self,
    Json.lookup_memberIf_of_ne]

theorem fields?_toJson :
    ∃ fs, a.toJson.fields? ["ant", "suggestedContent", "legacy", "tweeted", "tweetedAt"] = some fs ∧
      ∀ name, fs.present.lookup name = a.toJson.member? name := by
  refine ⟨_, Json.fields?_object ?_ (by decide), fun _ => rfl⟩
  simp only [List.map_append]
  exact ((((List.Sublist.refl ["ant"]).append (Json.names_memberIf _ _ _)).append
    (Json.names_memberIf _ _ _)).append (Json.names_memberIf _ _ _)).append
    (Json.names_memberIf _ _ _)

theorem ofJson?_toJson : ofJson? a.toJson = some a := by
  obtain ⟨fs, hfields, hmember⟩ := a.fields?_toJson
  obtain ⟨hcontent, hsuggested, hlegacy, htweeted, htweetedAt⟩ := a.member?_toJson
  simp only [← hmember] at hcontent hsuggested hlegacy htweeted htweetedAt
  have h1 : fs.required? "ant" Json.asText? = some a.content := by
    rw [Json.Fields.required?, hcontent]
    rfl
  have h2 : fs.optional? "suggestedContent" Json.asText? = some a.suggested :=
    Json.Fields.optional?_of_lookup Json.asText?_text Json.text_ne_null hsuggested
  have h3 : fs.optional? "legacy" Json.asBool? = some a.legacy :=
    Json.Fields.optional?_of_lookup Json.asBool?_bool Json.bool_ne_null hlegacy
  have h4 : fs.optional? "tweeted" Json.asBool? = some a.tweeted :=
    Json.Fields.optional?_of_lookup Json.asBool?_bool Json.bool_ne_null htweeted
  have h5 : fs.optional? "tweetedAt" Instant.ofJson? = some a.tweetedAt :=
    Json.Fields.optional?_of_lookup Instant.ofJson?_toJson Instant.toJson_ne_null htweetedAt
  rw [ofJson?, hfields]
  simp only [Option.bind_eq_bind, Option.bind_some, h1, h2, h3, h4, h5]
  rfl

end SiteAnt

namespace Site

variable (s : Site)

theorem held_toJson : Held s.toJson :=
  .object (AllHeld.cons (.text _) (.cons (Held.map SiteAnt.held_toJson _) .nil))

theorem ofJson?_toJson : ofJson? s.toJson = some s := by
  obtain ⟨fs, hfields, hmember⟩ : ∃ fs, s.toJson.fields? ["version", "ants"] = some fs ∧
      ∀ name, fs.present.lookup name = s.toJson.member? name :=
    ⟨_, Json.fields?_object (.refl _) (by decide), fun _ => rfl⟩
  have hversion : fs.defaulted? "version" "" Json.asText? = some s.version := by
    rw [Json.Fields.defaulted?, hmember]
    rfl
  have hants : fs.required? "ants" (Json.asList? SiteAnt.ofJson?) = some s.ants := by
    rw [Json.Fields.required?, hmember]
    exact Json.asList?_map SiteAnt.ofJson?_toJson s.ants
  rw [ofJson?, hfields]
  simp only [Option.bind_eq_bind, Option.bind_some, hversion, hants]
  rfl

end Site

namespace Issue

theorem stateOfJson?_name (s : IssueState) : IssueState.ofJson? (.text s.name) = some s := by
  cases s <;> rfl

theorem held_label (l : String) : Held (.object [("name", .text l)]) :=
  .object (AllHeld.cons (.text l) .nil)

theorem labelOfJson?_object (l : String) : labelOfJson? (.object [("name", .text l)]) = some l := by
  have hfields : (Json.object [("name", .text l)]).fields? ["name"] = some _ :=
    Json.fields?_object (.refl _) (by decide)
  rw [labelOfJson?, hfields]
  rfl

variable (i : Issue)

theorem held_toJson : Held i.toJson :=
  .object (AllHeld.cons (.text _) (.cons (.text _) (.cons i.createdAt.held_toJson
    (.cons (.bool _) (.cons (Held.orNull Instant.held_toJson _)
      (.cons (.text _) (.cons (Held.map held_label _) .nil)))))))

theorem ofJson?_toJson : ofJson? i.toJson = some i := by
  obtain ⟨fs, hfields, hmember⟩ :
      ∃ fs, i.toJson.fields?
          ["title", "state", "createdAt", "closed", "closedAt", "body", "labels"] = some fs ∧
        ∀ name, fs.present.lookup name = i.toJson.member? name :=
    ⟨_, Json.fields?_object (.refl _) (by decide), fun _ => rfl⟩
  have htitle : fs.required? "title" Json.asText? = some i.title := by
    rw [Json.Fields.required?, hmember]
    rfl
  have hstate : fs.required? "state" IssueState.ofJson? = some i.state := by
    rw [Json.Fields.required?, hmember]
    exact stateOfJson?_name i.state
  have hcreated : fs.required? "createdAt" Instant.ofJson? = some i.createdAt := by
    have hdate : i.toJson.member? "createdAt" = some i.createdAt.toJson := rfl
    rw [Json.Fields.required?, hmember, hdate, Option.bind_eq_bind, Option.bind_some,
      i.createdAt.ofJson?_toJson]
  have hclosed : fs.required? "closed" Json.asBool? = some i.closed := by
    rw [Json.Fields.required?, hmember]
    rfl
  have hclosedAt : fs.nullable? "closedAt" Instant.ofJson? = some i.closedAt := by
    rw [Json.Fields.nullable?, hmember]
    exact Json.asOption?_orNull Instant.ofJson?_toJson Instant.toJson_ne_null i.closedAt
  have hbody : fs.defaulted? "body" "" Json.asText? = some i.body := by
    rw [Json.Fields.defaulted?, hmember]
    rfl
  have hlabels : fs.defaulted? "labels" [] (Json.asList? labelOfJson?) = some i.labels := by
    rw [Json.Fields.defaulted?, hmember]
    exact Json.asList?_map labelOfJson?_object i.labels
  rw [ofJson?, hfields]
  simp only [Option.bind_eq_bind, Option.bind_some, htitle, hstate, hcreated, hclosed, hclosedAt,
    hbody, hlabels]
  rfl

end Issue

/-- Site data and issues are read back as they were from the text they are written as. In that text
an ant has those members for which it has a value, and an issue has the date of its closing even
where that is null. -/
theorem documents_read_back (site : Site) (issue : Issue) :
    (Json.read? site.toJson.compact).bind Site.ofJson? = some site ∧
      (Json.read? issue.toJson.compact).bind Issue.ofJson? = some issue ∧
      (∃ ants, Json.read? site.toJson.compact =
          some (.object [("version", .text site.version), ("ants", .array ants)]) ∧
        List.Forall₂ (fun (a : SiteAnt) j =>
          j.member? "ant" = some (.text a.content) ∧
          j.member? "suggestedContent" = a.suggested.map .text ∧
          j.member? "legacy" = a.legacy.map .bool ∧
          j.member? "tweeted" = a.tweeted.map .bool ∧
          j.member? "tweetedAt" = a.tweetedAt.map fun i => .text i.text) site.ants ants) ∧
      ∃ document, Json.read? issue.toJson.compact = some document ∧
        document.member? "closedAt" =
          some (issue.closedAt.elim .null fun i => .text i.text) := by
  have hsite := Json.read?_compact site.held_toJson
  have hissue := Json.read?_compact issue.held_toJson
  refine ⟨by rw [hsite]; exact site.ofJson?_toJson, by rw [hissue]; exact issue.ofJson?_toJson,
    ⟨_, hsite, ?_⟩, _, hissue, ?_⟩
  · rw [List.forall₂_map_right_iff, List.forall₂_same]
    exact fun a _ => a.member?_toJson
  · show some (Json.orNull Instant.toJson issue.closedAt) = _
    cases issue.closedAt <;> rfl

end AntRegister
