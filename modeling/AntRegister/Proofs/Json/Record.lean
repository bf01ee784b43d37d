import AntRegister.Json.Record
import AntRegister.Proofs.Distinct
import AntRegister.Proofs.Json.Compact
/-! Reading a record off an object that has each member once. A member that is left out is a field
without a value. -/

namespace AntRegister.Json

variable {α : Type}

/-- The value of an object's member, if there is one of this name. -/
def member? (name : String) : Json → Option Json
  | .object members => members.lookup name
  | _ => none

theorem asText?_text (s : String) : asText? (.text s) = some s := rfl

theorem asBool?_bool (b : Bool) : asBool? (.bool b) = some b := rfl

theorem text_ne_null (s : String) : Json.text s ≠ .null := nofun

theorem bool_ne_null (b : Bool) : Json.bool b ≠ .null := nofun

theorem fields?_object {names : List String} {members : List (String × Json)}
    (hnames : (members.map Prod.fst).Sublist names) (hdistinct : names.Nodup) :
    (Json.object members).fields? names = some ⟨members, false⟩ := by
  have hown : (members.filter fun m => names.contains m.1) = members :=
    List.filter_eq_self.mpr fun m hm =>
      List.contains_iff_mem.mpr (hnames.subset (List.mem_map_of_mem hm))
  rw [fields?, hown, eraseDups_of_nodup (hdistinct.sublist hnames), List.length_map, if_pos rfl]

section

variable (name : String) (toJson : α → Json) (o : Option α)

theorem names_memberIf : ((memberIf name toJson o).map Prod.fst).Sublist [name] := by
  cases o with
  | none => exact List.nil_sublist _
  | some a => exact List.Sublist.refl _

theorem lookup_memberIf_self : (memberIf name toJson o).lookup name = o.map toJson := by
  cases o with
  | none => rfl
  | some a => exact List.lookup_cons_self

theorem lookup_memberIf_of_ne {other : String} (h : other ≠ name) :
    (memberIf name toJson o).lookup other = none := by
  cases o with
  | none => rfl
  | some a => rw [memberIf, List.lookup_cons, beq_false_of_ne h, List.lookup_nil]

end

section

variable {read : Json → Option α} {toJson : α → Json} (h : ∀ a, read (toJson a) = some a)

include h

theorem asList?_map (as : List α) : asList? read (.array (as.map toJson)) = some as := by
  rw [asList?]
  induction as with
  | nil => rfl
  | cons a as ih =>
    rw [List.map_cons, List.mapM_cons, h, ih]
    rfl

theorem asOption?_of_ne (hnull : ∀ a, toJson a ≠ .null) (a : α) :
    asOption? read (toJson a) = some (some a) := by
  rw [asOption?.eq_2 _ _ (hnull a), h]
  rfl

theorem asOption?_orNull (hnull : ∀ a, toJson a ≠ .null) (o : Option α) :
    asOption? read (orNull toJson o) = some o := by
  cases o with
  | none => rfl
  | some a => exact asOption?_of_ne h hnull a

/-- A field that may be left out is read as what its member was made of. -/
theorem Fields.optional?_of_lookup (hnull : ∀ a, toJson a ≠ .null) {fs : Fields} {name : String}
    {o : Option α} (hlookup : fs.present.lookup name = o.map toJson) :
    fs.optional? name read = some o := by
  rw [optional?, defaulted?, hlookup]
  cases o with
  | none => rfl
  | some a => exact asOption?_of_ne h hnull a

end

/-- Whether each member of an object can be held. -/
def AllHeld (members : List (String × Json)) : Prop := ∀ m ∈ members, Held m.2

namespace AllHeld

variable {members others : List (String × Json)}

theorem nil : AllHeld [] := List.forall_mem_nil _

theorem cons {name : String} {j : Json} (hj : Held j) (h : AllHeld members) :
    AllHeld ((name, j) :: members) := List.forall_mem_cons.mpr ⟨hj, h⟩

theorem append (h : AllHeld members) (hothers : AllHeld others) : AllHeld (members ++ others) :=
  fun m hm => (List.mem_append.mp hm).elim (h m) (hothers m)

theorem memberIf {toJson : α → Json} (h : ∀ a, Held (toJson a)) (name : String) (o : Option α) :
    AllHeld (Json.memberIf name toJson o) := by
  cases o with
  | none => exact .nil
  | some a => exact .cons (h a) .nil

end AllHeld

theorem Held.orNull {toJson : α → Json} (h : ∀ a, Held (toJson a)) (o : Option α) :
    Held (Json.orNull toJson o) := by
  cases o with
  | none => exact .null
  | some a => exact h a

theorem Held.map {toJson : α → Json} (h : ∀ a, Held (toJson a)) (as : List α) :
    Held (.array (as.map toJson)) :=
  .array (List.forall_mem_map.mpr fun a _ => h a)

end AntRegister.Json
