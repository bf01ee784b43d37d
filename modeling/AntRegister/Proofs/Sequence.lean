import Mathlib.Data.List.Basic
/-! Asking for the items of a list one after the other, up to the first that has no answer. -/

namespace AntRegister

variable {β ε α : Type} {ask : β → Except ε α}

@[simp] theorem pure_eq_ok_iff {a b : α} : (pure a : Except ε α) = .ok b ↔ a = b := by
  simp [pure, Except.pure]

@[simp] theorem throw_ne_ok {e : ε} {a : α} : (throw e : Except ε α) ≠ .ok a := nofun

theorem bind_eq_ok_iff {x : Except ε α} {next : α → Except ε β} {b : β} :
    x >>= next = .ok b ↔ ∃ a, x = .ok a ∧ next a = .ok b := by
  cases x with
  | ok a => exact ⟨fun h => ⟨a, rfl, h⟩, fun ⟨_, ha, h⟩ => Except.ok.inj ha ▸ h⟩
  | error e => exact ⟨nofun, nofun⟩

theorem mapM_eq_ok_iff {items : List β} {found : List α} :
    items.mapM ask = .ok found ↔ items.map ask = found.map .ok := by
  induction items generalizing found with
  | nil => cases found <;> simp [pure, Except.pure]
  | cons item items ih =>
    rw [List.mapM_cons, List.map_cons]
    cases hi : ask item with
    | error e => cases found <;> simp [bind, Except.bind]
    | ok a =>
      cases found with
      | nil => cases items.mapM ask <;> simp [bind, Except.bind, pure, Except.pure]
      | cons b found =>
        rw [List.map_cons, List.cons.injEq, ← ih]
        cases items.mapM ask <;> simp [bind, Except.bind, pure, Except.pure]

/-- What is read off each answer can be read off the items. -/
theorem map_eq_map_of_ok {γ : Type} {items : List β} {found : List α} {g : α → γ} {k : β → γ}
    (h : items.map ask = found.map .ok) (hg : ∀ b a, ask b = .ok a → g a = k b) :
    found.map g = items.map k := by
  induction items generalizing found with
  | nil => cases found <;> simp_all
  | cons b items ih =>
    cases found with
    | nil => cases h
    | cons a found =>
      obtain ⟨ha, hrest⟩ := List.cons.inj h
      rw [List.map_cons, List.map_cons, hg b a ha, ih hrest]

theorem filterMap_eq_filterMap_of_ok {γ : Type} {items : List β} {found : List α}
    {g : α → Option γ} {k : β → Option γ} (h : items.map ask = found.map .ok)
    (hg : ∀ b a, ask b = .ok a → g a = k b) : found.filterMap g = items.filterMap k := by
  have hmap := congrArg (List.filterMap id) (map_eq_map_of_ok h hg)
  simpa only [List.filterMap_map, Function.id_comp] using hmap

theorem ask_of_mem_zip {items : List β} {found : List α} {b : β} {a : α}
    (h : items.map ask = found.map .ok) (hmem : (b, a) ∈ items.zip found) : ask b = .ok a := by
  induction items generalizing found with
  | nil => cases hmem
  | cons c items ih =>
    cases found with
    | nil => cases h
    | cons d found =>
      obtain ⟨hhead, hrest⟩ := List.cons.inj h
      rcases List.mem_cons.mp hmem with heq | hmem
      · obtain ⟨rfl, rfl⟩ := Prod.mk.inj heq
        exact hhead
      · exact ih hrest hmem

/-- The error of a sequence is that of its first item without an answer. -/
theorem mapM_eq_error_iff {items : List β} {e : ε} :
    items.mapM ask = .error e ↔
      ∃ before item after, items = before ++ item :: after ∧
        (∀ b ∈ before, ∃ a, ask b = .ok a) ∧ ask item = .error e := by
  induction items with
  | nil => simp [pure, Except.pure]
  | cons item items ih =>
    rw [List.mapM_cons]
    constructor
    · intro h
      cases hi : ask item with
      | error e' =>
        rw [hi] at h
        exact ⟨[], item, items, rfl, by simp, hi.trans (by simpa [bind, Except.bind] using h)⟩
      | ok a =>
        have hrest : items.mapM ask = .error e := by
          cases hr : items.mapM ask with
          | error e' => rw [hi, hr] at h; exact h
          | ok found => rw [hi, hr] at h; cases h
        obtain ⟨before, x, after, rfl, hbefore, hx⟩ := ih.mp hrest
        refine ⟨item :: before, x, after, rfl, ?_, hx⟩
        rintro b (_ | ⟨_, hb⟩)
        · exact ⟨a, hi⟩
        · exact hbefore b hb
    · rintro ⟨before, x, after, heq, hbefore, hx⟩
      cases before with
      | nil =>
        obtain ⟨rfl, rfl⟩ := List.cons.inj heq
        rw [hx]
        rfl
      | cons b before =>
        obtain ⟨rfl, rfl⟩ := List.cons.inj heq
        obtain ⟨a, ha⟩ := hbefore item List.mem_cons_self
        have hrest := ih.mpr ⟨before, x, after, rfl, fun b hb =>
          hbefore b (List.mem_cons_of_mem _ hb), hx⟩
        rw [ha, hrest]
        rfl

/-- Sequences that agree item by item, in what is read off the answers and up to a change of the
errors, agree as a whole. -/
theorem map_mapM_eq_mapError {ε' γ : Type} {ask' : β → Except ε' α}
    {k : α → γ} {g : ε → ε'} (h : ∀ b, (ask' b).map k = ((ask b).map k).mapError g)
    (items : List β) :
    (items.mapM ask').map (List.map k) = ((items.mapM ask).map (List.map k)).mapError g := by
  induction items with
  | nil => rfl
  | cons b items ih =>
    have hb := h b
    rw [List.mapM_cons, List.mapM_cons]
    generalize ask b = x at hb ⊢
    generalize ask' b = x' at hb ⊢
    generalize items.mapM ask = rest at ih ⊢
    generalize items.mapM ask' = rest' at ih ⊢
    cases x with
    | error e =>
      cases x' with
      | error e' => exact congrArg Except.error (Except.error.inj hb)
      | ok a' => cases hb
    | ok a =>
      cases x' with
      | error e' => cases hb
      | ok a' =>
        cases rest with
        | error e =>
          cases rest' with
          | error e' => exact ih
          | ok found' => cases ih
        | ok found =>
          cases rest' with
          | error e' => cases ih
          | ok found' =>
            exact congrArg Except.ok (congrArg₂ List.cons (Except.ok.inj hb) (Except.ok.inj ih))

/-- Nothing behind an item without an answer changes what a sequence gives. -/
theorem mapM_take_eq {items : List β} {n i : Nat} {e : ε} (hi : i < n)
    (h : items[i]?.map ask = some (.error e)) : (items.take n).mapM ask = items.mapM ask := by
  obtain ⟨item, hitem, he⟩ := Option.map_eq_some_iff.mp h
  cases htake : (items.take n).mapM ask with
  | error e' =>
    conv_rhs => rw [← List.take_append_drop n items, List.mapM_append, htake]
    rfl
  | ok found =>
    have hmem : item ∈ items.take n := by
      rw [← List.getElem?_take_of_lt hi] at hitem
      exact List.mem_of_getElem? hitem
    have hok : ask item ∈ found.map .ok :=
      mapM_eq_ok_iff.mp htake ▸ List.mem_map_of_mem hmem
    obtain ⟨a, -, ha⟩ := List.mem_map.mp hok
    rw [he] at ha
    cases ha

end AntRegister
