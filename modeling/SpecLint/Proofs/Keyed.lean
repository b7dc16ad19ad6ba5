import Mathlib.Data.List.Nodup

/-!
# Lists of keys and values

Several parts keep keys and values in a list: directories their entries, documents their tables,
configurations their rules.  Where the keys are distinct, looking a key up finds its only value.  A
checked pass over such a list succeeds where each entry is in order, and what it leaves of a key is
decided by the entry of this key alone.

* `lookup_eq_some_iff` — with distinct keys each value is found under its key.
* `exists_foldlM_iff`, `exists_mapM_iff` — when a pass succeeds.
* `lookup_mapM` — what a pass over the values leaves under a key.
* `field_foldlM` — what a pass that gathers a record leaves in one field of it.
-/

namespace SpecLint.Keyed

variable {ε κ α β σ : Type}

/-! ## Looking up -/

section Lookup

variable [BEq κ] [LawfulBEq κ] {entries : List (κ × α)} {key : κ} {value : α}

theorem mem_of_lookup (h : entries.lookup key = some value) : (key, value) ∈ entries := by
  obtain ⟨before, after, rfl, -⟩ := List.lookup_eq_some_iff.1 h
  exact List.mem_append_right _ (List.mem_cons_self ..)

/-- With distinct keys each value is found under its own key. -/
theorem lookup_eq_some_iff (h : (entries.map Prod.fst).Nodup) :
    entries.lookup key = some value ↔ (key, value) ∈ entries := by
  constructor
  · exact mem_of_lookup
  · intro hmem
    induction entries with
    | nil => exact nomatch hmem
    | cons entry rest ih =>
        obtain ⟨other, old⟩ := entry
        rw [List.map_cons, List.nodup_cons] at h
        rcases List.mem_cons.1 hmem with heq | hmem
        · obtain ⟨rfl, rfl⟩ := Prod.mk.inj heq
          exact List.lookup_cons_self
        · have hother : (key == other) = false := beq_eq_false_iff_ne.2 fun heq =>
            h.1 (List.mem_map.2 ⟨(key, value), hmem, heq⟩)
          rw [List.lookup_cons, hother]
          exact ih h.2 hmem

end Lookup

/-! ## Checked passes -/

theorem bind_eq_ok_iff {x : Except ε α} {f : α → Except ε β} {b : β} :
    x >>= f = .ok b ↔ ∃ a, x = .ok a ∧ f a = .ok b := by
  cases x with
  | error problem => exact ⟨(nomatch ·), fun ⟨_, h, _⟩ => nomatch h⟩
  | ok a => exact ⟨fun h => ⟨a, rfl, h⟩, fun ⟨_, ha, h⟩ => Except.ok.inj ha ▸ h⟩

theorem map_eq_ok_iff {x : Except ε α} {f : α → β} {b : β} :
    f <$> x = .ok b ↔ ∃ a, x = .ok a ∧ f a = b := by
  cases x with
  | error problem => exact ⟨(nomatch ·), fun ⟨_, h, _⟩ => nomatch h⟩
  | ok a =>
      exact ⟨fun h => ⟨a, rfl, Except.ok.inj h⟩, fun ⟨_, ha, h⟩ =>
        congrArg Except.ok (Except.ok.inj ha ▸ h)⟩

theorem exists_map_iff {x : Except ε α} {f : α → β} :
    (∃ b, f <$> x = .ok b) ↔ ∃ a, x = .ok a := by
  constructor
  · rintro ⟨b, h⟩
    obtain ⟨a, ha, -⟩ := map_eq_ok_iff.1 h
    exact ⟨a, ha⟩
  · rintro ⟨a, ha⟩
    exact ⟨f a, map_eq_ok_iff.2 ⟨a, ha, rfl⟩⟩

/-- A pass succeeds iff each item is in order, where no item depends on those before it. -/
theorem exists_foldlM_iff {step : σ → α → Except ε σ} {InOrder : α → Prop}
    (hstep : ∀ state item, (∃ next, step state item = .ok next) ↔ InOrder item)
    (items : List α) (state : σ) :
    (∃ final, items.foldlM step state = .ok final) ↔ ∀ item ∈ items, InOrder item := by
  induction items generalizing state with
  | nil => exact ⟨fun _ _ hitem => (nomatch hitem), fun _ => ⟨state, rfl⟩⟩
  | cons item items ih =>
      rw [List.foldlM_cons, List.forall_mem_cons, ← hstep state item]
      constructor
      · rintro ⟨final, hrun⟩
        obtain ⟨next, hnext, hrun⟩ := bind_eq_ok_iff.1 hrun
        exact ⟨⟨next, hnext⟩, (ih next).1 ⟨final, hrun⟩⟩
      · rintro ⟨⟨next, hnext⟩, hrest⟩
        obtain ⟨final, hrun⟩ := (ih next).2 hrest
        exact ⟨final, bind_eq_ok_iff.2 ⟨next, hnext, hrun⟩⟩

theorem mapM_cons_eq_ok_iff {f : α → Except ε β} {item : α} {items : List α} {out : List β} :
    (item :: items).mapM f = .ok out ↔
      ∃ first rest, f item = .ok first ∧ items.mapM f = .ok rest ∧ out = first :: rest := by
  rw [List.mapM_cons]
  constructor
  · intro h
    obtain ⟨first, hfirst, h⟩ := bind_eq_ok_iff.1 h
    obtain ⟨rest, hrest, h⟩ := bind_eq_ok_iff.1 h
    exact ⟨first, rest, hfirst, hrest, (Except.ok.inj h).symm⟩
  · rintro ⟨first, rest, hfirst, hrest, rfl⟩
    exact bind_eq_ok_iff.2 ⟨first, hfirst, bind_eq_ok_iff.2 ⟨rest, hrest, rfl⟩⟩

/-- Converting all items succeeds iff each of them can be converted. -/
theorem exists_mapM_iff {f : α → Except ε β} {items : List α} :
    (∃ out, items.mapM f = .ok out) ↔ ∀ item ∈ items, ∃ b, f item = .ok b := by
  induction items with
  | nil => exact ⟨fun _ _ hitem => (nomatch hitem), fun _ => ⟨[], rfl⟩⟩
  | cons item items ih =>
      rw [List.forall_mem_cons, ← ih]
      constructor
      · rintro ⟨out, h⟩
        obtain ⟨first, rest, hfirst, hrest, -⟩ := mapM_cons_eq_ok_iff.1 h
        exact ⟨⟨first, hfirst⟩, rest, hrest⟩
      · rintro ⟨⟨first, hfirst⟩, rest, hrest⟩
        exact ⟨first :: rest, mapM_cons_eq_ok_iff.2 ⟨first, rest, hfirst, hrest, rfl⟩⟩

/-- Converting the values leaves each under its key. -/
theorem lookup_mapM [BEq κ] {f : α → Except ε β} {entries : List (κ × α)} {out : List (κ × β)}
    (h : entries.mapM (fun (key, value) => (key, ·) <$> f value) = .ok out) (key : κ) :
    entries.lookup key = none ∧ out.lookup key = none ∨
      ∃ value b, entries.lookup key = some value ∧ out.lookup key = some b ∧ f value = .ok b := by
  induction entries generalizing out with
  | nil =>
      obtain rfl := Except.ok.inj h
      exact Or.inl ⟨rfl, rfl⟩
  | cons entry entries ih =>
      obtain ⟨other, value⟩ := entry
      obtain ⟨first, rest, hfirst, hrest, rfl⟩ := mapM_cons_eq_ok_iff.1 h
      obtain ⟨b, hb, rfl⟩ := map_eq_ok_iff.1 hfirst
      rw [List.lookup_cons, List.lookup_cons]
      cases key == other with
      | true => exact Or.inr ⟨value, b, rfl, rfl, hb⟩
      | false => exact ih hrest

/-- A pass over distinct keys leaves in one field what the entry of its key puts there; the other
entries leave the field as it is. -/
theorem field_foldlM [BEq κ] [LawfulBEq κ] {step : σ → κ × α → Except ε σ} {field : σ → β} {key : κ}
    {Puts : α → β → Prop}
    (hset : ∀ state value next, step state (key, value) = .ok next → Puts value (field next))
    (hkeep : ∀ state other value next, other ≠ key → step state (other, value) = .ok next →
      field next = field state)
    {entries : List (κ × α)} (hdistinct : (entries.map Prod.fst).Nodup) {state final : σ}
    (hrun : entries.foldlM step state = .ok final) :
    entries.lookup key = none ∧ field final = field state ∨
      ∃ value, entries.lookup key = some value ∧ Puts value (field final) := by
  induction entries generalizing state with
  | nil =>
      obtain rfl := Except.ok.inj hrun
      exact Or.inl ⟨rfl, rfl⟩
  | cons entry rest ih =>
      obtain ⟨other, value⟩ := entry
      rw [List.map_cons, List.nodup_cons] at hdistinct
      rw [List.foldlM_cons] at hrun
      obtain ⟨next, hnext, hrun⟩ := bind_eq_ok_iff.1 hrun
      have hrest := ih hdistinct.2 hrun
      by_cases hkey : other = key
      · subst hkey
        refine Or.inr ⟨value, List.lookup_cons_self, ?_⟩
        -- the key comes only once, so what follows leaves the field as it is
        rcases hrest with ⟨-, hfield⟩ | ⟨later, hlater, -⟩
        · rw [hfield]
          exact hset state value next hnext
        · exact absurd (List.mem_map.2 ⟨_, mem_of_lookup hlater, rfl⟩) hdistinct.1
      · rw [List.lookup_cons, beq_eq_false_iff_ne.2 (Ne.symm hkey)]
        rwa [← hkeep state other value next hkey hnext]

end SpecLint.Keyed
