import SpecLint.Proofs.Keyed
import SpecLint.Toml.Document

/-!
# Keys of a document are distinct

TOML forbids to define a key twice.  The reader keeps to it: in what it gives for a text, no table
lists a key twice, whether the table was opened by a header, made by dotted keys or written in
braces.

* `Reader.Yields` — what holds of everything that a reader takes, with one rule for each way to put
  readers together.
* `Kept` — a table under construction lists no key twice, and neither does anything in it.
* `Draft.kept_within` — work inside of a table keeps the table.
* `distinct_of_parse` — **no table of a document lists a key twice**.
-/

namespace SpecLint.Toml

/-! ## What readers take -/

namespace Reader

variable {α β : Type} {P : α → Prop} {Q : β → Prop}

/-- Everything that the reader takes has the property. -/
def Yields (r : Reader α) (P : α → Prop) : Prop :=
  ∀ text a rest, r text = some (a, rest) → P a

theorem yields_true (r : Reader α) : Yields r fun _ => True := fun _ _ _ _ => trivial

theorem yields_pure {a : α} (h : P a) : Yields (pure a) P := by
  rintro text _ _ ⟨⟩
  exact h

theorem yields_failure : Yields (failure : Reader α) P := by
  intro text a rest h
  exact nomatch h

theorem Yields.bind {r : Reader α} {f : α → Reader β} (h : Yields r P)
    (hf : ∀ a, P a → Yields (f a) Q) : Yields (r >>= f) Q := by
  intro text b rest hb
  obtain ⟨⟨a, between⟩, ha, hb⟩ := Option.bind_eq_some_iff.1 hb
  exact hf a (h text a between ha) between b rest hb

/-- What is taken last decides, whatever is taken first. -/
theorem yields_bind {r : Reader α} {f : α → Reader β} (hf : ∀ a, Yields (f a) Q) :
    Yields (r >>= f) Q :=
  (yields_true r).bind fun a _ => hf a

theorem Yields.map {r : Reader α} {f : α → β} (h : Yields r P) (hf : ∀ a, P a → Q (f a)) :
    Yields (f <$> r) Q := by
  intro text b rest hb
  obtain ⟨⟨a, between⟩, ha, hb⟩ := Option.bind_eq_some_iff.1 hb
  obtain ⟨rfl, -⟩ := Prod.mk.inj (Option.some.inj hb)
  exact hf a (h text a between ha)

theorem Yields.orElse {r s : Reader α} (hr : Yields r P) (hs : Yields s P) :
    Yields (r <|> s) P := by
  intro text a rest h
  change (r text <|> s text) = some (a, rest) at h
  cases hfirst : r text with
  | some taken =>
      rw [hfirst] at h
      obtain rfl := Option.some.inj h
      exact hr text a rest hfirst
  | none =>
      rw [hfirst] at h
      exact hs text a rest h

theorem Yields.optional {r : Reader α} (h : Yields r P) :
    Yields (optional r) fun found => ∀ a ∈ found, P a := by
  refine Yields.orElse (h.map fun a ha b hb => ?_) (yields_pure fun b hb => nomatch hb)
  obtain rfl := Option.some.inj hb
  exact ha

theorem Yields.repeatOver {r : Reader α} (h : Yields r P) (bound : List Char) :
    Yields (repeatOver r bound) fun all => ∀ a ∈ all, P a := by
  induction bound with
  | nil => exact yields_pure fun a ha => nomatch ha
  | cons c bound ih =>
      refine h.optional.bind fun found hfound => ?_
      cases found with
      | none => exact yields_pure fun a ha => nomatch ha
      | some first =>
          refine ih.bind fun rest hrest => yields_pure ?_
          exact List.forall_mem_cons.2 ⟨hfound first rfl, hrest⟩

theorem Yields.many {r : Reader α} (h : Yields r P) :
    Yields (many r) fun all => ∀ a ∈ all, P a :=
  yields_bind fun text => h.repeatOver text

theorem Yields.separated {r : Reader α} (h : Yields r P) (separator : Reader Unit) :
    Yields (separated r separator) fun all => ∀ a ∈ all, P a := by
  refine h.bind fun first hfirst => ?_
  refine (Yields.many (yields_bind fun _ => h)).bind fun rest hrest => yields_pure ?_
  exact List.forall_mem_cons.2 ⟨hfirst, hrest⟩

end Reader

open Reader

/-! ## Distinct keys -/

/-- No table in a value lists a key twice. -/
inductive Value.Distinct : Value → Prop where
  | string (value : String) : Distinct (.string value)
  | integer (value : Int) : Distinct (.integer value)
  | float (value : Binary64) : Distinct (.float value)
  | boolean (value : Bool) : Distinct (.boolean value)
  | dateTime (value : DateTime) : Distinct (.dateTime value)
  | array {items : List Value} (below : ∀ item ∈ items, Distinct item) : Distinct (.array items)
  | table {entries : Entries} (distinct : (entries.map Prod.fst).Nodup)
      (below : ∀ entry ∈ entries, Distinct entry.2) : Distinct (.table entries)

theorem finishEntries_eq (entries : List (String × Item)) :
    finishEntries entries = entries.map fun entry => (entry.1, entry.2.finish) := by
  induction entries with
  | nil => rw [finishEntries, List.map_nil]
  | cons entry rest ih => rw [finishEntries, List.map_cons, ih]

theorem finishTables_eq (items : List (List (String × Item))) :
    finishTables items = items.map fun entries => .table (finishEntries entries) := by
  induction items with
  | nil => rw [finishTables, List.map_nil]
  | cons entries rest ih => rw [finishTables, List.map_cons, ih]

/-- A table under construction lists no key twice, and neither does any table in it. -/
structure Kept (entries : List (String × Item)) : Prop where
  /-- The keys are distinct. -/
  distinct : (entries.map Prod.fst).Nodup
  /-- The values have distinct keys. -/
  below : ∀ entry ∈ entries, entry.2.finish.Distinct

theorem kept_iff {entries : List (String × Item)} :
    Kept entries ↔ (Value.table (finishEntries entries)).Distinct := by
  have hkeys : (finishEntries entries).map Prod.fst = entries.map Prod.fst := by
    rw [finishEntries_eq, List.map_map]
    rfl
  constructor
  · intro h
    refine .table (hkeys ▸ h.distinct) fun entry hentry => ?_
    rw [finishEntries_eq] at hentry
    obtain ⟨made, hmade, rfl⟩ := List.mem_map.1 hentry
    exact h.below made hmade
  · intro h
    cases h with
    | table distinct below =>
        refine ⟨hkeys ▸ distinct, fun entry hentry => below (entry.1, entry.2.finish) ?_⟩
        rw [finishEntries_eq]
        exact List.mem_map.2 ⟨entry, hentry, rfl⟩

theorem kept_nil : Kept [] := ⟨List.nodup_nil, fun _ h => nomatch h⟩

theorem keys_setKey (key : String) (item : Item) (entries : List (String × Item)) :
    (setKey key item entries).map Prod.fst =
      if key ∈ entries.map Prod.fst then entries.map Prod.fst else entries.map Prod.fst ++ [key] := by
  induction entries with
  | nil => rfl
  | cons entry rest ih =>
      obtain ⟨other, old⟩ := entry
      by_cases hkey : other = key
      · simp [setKey, hkey]
      · have hmem : key ∈ ((other, old) :: rest).map Prod.fst ↔ key ∈ rest.map Prod.fst := by
          rw [List.map_cons, List.mem_cons]
          exact ⟨fun h => h.resolve_left fun heq => hkey heq.symm, Or.inr⟩
        rw [setKey, if_neg hkey, List.map_cons, ih]
        by_cases hlater : key ∈ rest.map Prod.fst
        · rw [if_pos hlater, if_pos (hmem.2 hlater)]
          rfl
        · rw [if_neg hlater, if_neg (mt hmem.1 hlater)]
          rfl

theorem mem_setKey {key : String} {item : Item} {entries : List (String × Item)}
    {entry : String × Item} (h : entry ∈ setKey key item entries) :
    entry = (key, item) ∨ entry ∈ entries := by
  induction entries with
  | nil => exact Or.inl (List.mem_singleton.1 h)
  | cons first rest ih =>
      obtain ⟨other, old⟩ := first
      rw [setKey] at h
      split at h
      · rename_i hkey
        subst hkey
        exact (List.mem_cons.1 h).imp id (List.mem_cons_of_mem _)
      · rcases List.mem_cons.1 h with rfl | h
        · exact Or.inr (List.mem_cons_self ..)
        · exact (ih h).imp id (List.mem_cons_of_mem _)

/-- Setting a key keeps the keys distinct. -/
theorem Kept.setKey {entries : List (String × Item)} (h : Kept entries) (key : String) {item : Item}
    (hitem : item.finish.Distinct) : Kept (setKey key item entries) := by
  constructor
  · rw [keys_setKey]
    by_cases hkey : key ∈ entries.map Prod.fst
    · rw [if_pos hkey]
      exact h.distinct
    · rw [if_neg hkey]
      exact List.nodup_append.2 ⟨h.distinct, List.nodup_singleton key, fun k hk k' hk' heq =>
        hkey (List.mem_singleton.1 hk' ▸ heq ▸ hk)⟩
  · intro entry hentry
    rcases mem_setKey hentry with rfl | hentry
    · exact hitem
    · exact h.below entry hentry

theorem Kept.lookup {entries : List (String × Item)} (h : Kept entries) {key : String} {item : Item}
    (hitem : entries.lookup key = some item) : item.finish.Distinct :=
  h.below (key, item) (Keyed.mem_of_lookup hitem)

/-! ## Tables under construction -/

theorem Kept.table {entries : List (String × Item)} (h : Kept entries) (implicit dotted : Bool) :
    (Item.table implicit dotted entries).finish.Distinct := by
  rw [Item.finish]
  exact kept_iff.1 h

theorem kept_of_table {implicit dotted : Bool} {entries : List (String × Item)}
    (h : (Item.table implicit dotted entries).finish.Distinct) : Kept entries := by
  rw [Item.finish] at h
  exact kept_iff.2 h

/-- A list of tables has distinct keys iff each of its tables has. -/
theorem distinct_tables_iff {items : List (List (String × Item))} :
    (Item.tables items).finish.Distinct ↔ ∀ entries ∈ items, Kept entries := by
  rw [Item.finish, finishTables_eq]
  constructor
  · intro h entries hentries
    cases h with
    | array below => exact kept_iff.2 (below _ (List.mem_map.2 ⟨entries, hentries, rfl⟩))
  · intro h
    refine .array fun item hitem => ?_
    obtain ⟨entries, hentries, rfl⟩ := List.mem_map.1 hitem
    exact kept_iff.1 (h entries hentries)

namespace Draft

variable {α : Type} {P : α → Prop}

/-- Work on a table that keeps its keys distinct, and whose result has a property. -/
def Keeps (work : Draft → Option (α × Draft)) (P : α → Prop) : Prop :=
  ∀ d a d', Kept d.entries → work d = some (a, d') → P a ∧ Kept d'.entries

/-- Work inside of a table, over any path, keeps the table. -/
theorem Keeps.within {work : Draft → Option (α × Draft)} (h : Keeps work P) (byDots : Bool)
    (path : List String) : Keeps (fun d => d.within byDots work path) P := by
  induction path with
  | nil =>
      intro d a d' hd hwork
      exact h d a d' hd hwork
  | cons key path ih =>
      intro d a d' hd hwork
      simp only [Draft.within] at hwork
      split at hwork
      · -- the table is made
        obtain ⟨⟨b, child⟩, hchild, hset⟩ := Option.bind_eq_some_iff.1 hwork
        obtain ⟨hb, hkept⟩ := ih _ b child kept_nil hchild
        obtain ⟨rfl, rfl⟩ := Prod.mk.inj (Option.some.inj hset)
        exact ⟨hb, hd.setKey key (hkept.table _ _)⟩
      · exact nomatch hwork
      · rename_i implicit dotted entries hlookup
        split at hwork
        · exact nomatch hwork
        · obtain ⟨⟨b, child⟩, hchild, hset⟩ := Option.bind_eq_some_iff.1 hwork
          obtain ⟨hb, hkept⟩ := ih _ b child (kept_of_table (hd.lookup hlookup)) hchild
          obtain ⟨rfl, rfl⟩ := Prod.mk.inj (Option.some.inj hset)
          exact ⟨hb, hd.setKey key (hkept.table _ _)⟩
      · -- the last table of a list is entered
        rename_i items hlookup
        have hitems := distinct_tables_iff.1 (hd.lookup hlookup)
        obtain ⟨last, hlast, hwork⟩ := Option.bind_eq_some_iff.1 hwork
        obtain ⟨⟨b, child⟩, hchild, hset⟩ := Option.bind_eq_some_iff.1 hwork
        obtain ⟨hb, hkept⟩ := ih _ b child (hitems last (List.mem_of_getLast? hlast)) hchild
        obtain ⟨rfl, rfl⟩ := Prod.mk.inj (Option.some.inj hset)
        refine ⟨hb, hd.setKey key (distinct_tables_iff.2 fun entries hentries => ?_)⟩
        rcases List.mem_append.1 hentries with hentries | hentries
        · exact hitems entries ((List.dropLast_sublist _).subset hentries)
        · obtain rfl := List.mem_singleton.1 hentries
          exact hkept

theorem kept_addEntry {d d' : Draft} {path : List String} {key : String} {value : Value}
    (hd : Kept d.entries) (hvalue : value.Distinct) (h : d.addEntry path key value = some d') :
    Kept d'.entries := by
  obtain ⟨⟨_, d''⟩, hwithin, heq⟩ := Option.bind_eq_some_iff.1 h
  obtain rfl := Option.some.inj heq
  refine (Keeps.within (P := fun _ => True) ?_ true path d _ d'' hd hwithin).2
  intro table _ table' htable hinsert
  dsimp only at hinsert
  split at hinsert
  · exact nomatch hinsert
  · split at hinsert
    · exact nomatch hinsert
    · obtain ⟨-, rfl⟩ := Prod.mk.inj (Option.some.inj hinsert)
      exact ⟨trivial, htable.setKey key (by rwa [Item.finish])⟩

theorem keeps_takeTable (key : String) :
    Keeps (·.takeTable key) fun current => Kept current.entries := by
  intro d current d' hd h
  dsimp only [takeTable] at h
  split at h
  · obtain ⟨rfl, rfl⟩ := Prod.mk.inj (Option.some.inj h)
    exact ⟨kept_nil, hd⟩
  · rename_i entries hlookup
    obtain ⟨rfl, rfl⟩ := Prod.mk.inj (Option.some.inj h)
    refine ⟨kept_of_table (hd.lookup hlookup), ?_, fun entry hentry =>
      hd.below entry (List.mem_of_mem_filter hentry)⟩
    exact hd.distinct.sublist (List.filter_sublist.map _)
  · exact nomatch h

theorem keeps_openList (key : String) : Keeps (·.openList key) fun _ => True := by
  intro d _ d' hd h
  dsimp only [openList] at h
  split at h
  · obtain ⟨-, rfl⟩ := Prod.mk.inj (Option.some.inj h)
    exact ⟨trivial, hd.setKey key (distinct_tables_iff.2 fun _ h => nomatch h)⟩
  · obtain ⟨-, rfl⟩ := Prod.mk.inj (Option.some.inj h)
    exact ⟨trivial, hd⟩
  · exact nomatch h

theorem keeps_putSection (key : String) (listed : Bool) {closed : Draft}
    (hclosed : Kept closed.entries) : Keeps (·.putSection key listed closed) fun _ => True := by
  intro d _ d' hd h
  dsimp only [putSection] at h
  split at h
  · split at h
    · rename_i items hlookup
      obtain ⟨-, rfl⟩ := Prod.mk.inj (Option.some.inj h)
      refine ⟨trivial, hd.setKey key (distinct_tables_iff.2 fun entries hentries => ?_)⟩
      rcases List.mem_append.1 hentries with hentries | hentries
      · exact distinct_tables_iff.1 (hd.lookup hlookup) entries hentries
      · obtain rfl := List.mem_singleton.1 hentries
        exact hclosed
    · exact nomatch h
  · obtain ⟨-, rfl⟩ := Prod.mk.inj (Option.some.inj h)
    exact ⟨trivial, hd.setKey key (hclosed.table _ _)⟩

end Draft

/-! ## Values -/

theorem yields_scalar : Yields scalar Value.Distinct := by
  refine yields_bind fun next => ?_
  split
  · exact (yields_true _).map fun text _ => .string text
  · exact (yields_true _).map fun text _ => .string text
  · exact yields_bind fun _ => yields_pure (.boolean true)
  · exact yields_bind fun _ => yields_pure (.boolean false)
  · refine Yields.orElse ?_ (Yields.orElse ?_ ?_)
    · exact (yields_true _).map fun date _ => .dateTime date
    · exact (yields_true _).map fun number _ => .float number
    · exact (yields_true _).map fun number _ => .integer number

theorem yields_arrayItems {value : Reader Value} (h : Yields value Value.Distinct) :
    Yields (arrayItems value) fun items => ∀ item ∈ items, item.Distinct := by
  have hitem : Yields (do blankLines; let v ← value; blankLines; return v) Value.Distinct :=
    yields_bind fun _ => h.bind fun v hv => yields_bind fun _ => yields_pure hv
  refine (hitem.separated _).optional.bind fun items hitems => ?_
  have hlist : ∀ item ∈ items.getD [], item.Distinct := by
    cases items with
    | none => exact fun _ h => nomatch h
    | some list => exact hitems list rfl
  have hend : Yields (do blankLines; char ']'; return items.getD [])
      fun items => ∀ item ∈ items, item.Distinct :=
    yields_bind fun _ => yields_bind fun _ => yields_pure hlist
  split
  · exact yields_bind fun _ => hend
  · exact hend

theorem foldlM_addEntry {entries : List ((List String × String) × Value)} {d d' : Draft}
    (hd : Kept d.entries) (hvalues : ∀ e ∈ entries, e.2.Distinct)
    (h : entries.foldlM (fun d e => d.addEntry e.1.1 e.1.2 e.2) d = some d') : Kept d'.entries := by
  induction entries generalizing d with
  | nil =>
      obtain rfl := Option.some.inj h
      exact hd
  | cons e rest ih =>
      obtain ⟨hvalue, hrest⟩ := List.forall_mem_cons.1 hvalues
      obtain ⟨next, hnext, h⟩ := Option.bind_eq_some_iff.1 h
      exact ih (Draft.kept_addEntry hd hvalue hnext) hrest h

theorem yields_bracedEntries {value : Reader Value} (h : Yields value Value.Distinct) :
    Yields (bracedEntries value) fun entries => (Value.table entries).Distinct := by
  have hentry : Yields (do let k ← key; char '='; blanks; let v ← value; blanks; return (k, v))
      fun e => e.2.Distinct :=
    yields_bind fun _ => yields_bind fun _ => yields_bind fun _ =>
      h.bind fun v hv => yields_bind fun _ => yields_pure hv
  refine (hentry.separated _).optional.bind fun found hfound => ?_
  refine yields_bind fun _ => yields_bind fun _ => ?_
  split
  · rename_i d hd
    refine yields_pure (kept_iff.1 (foldlM_addEntry kept_nil ?_ hd))
    cases found with
    | none => exact fun _ h => nomatch h
    | some list => exact hfound list rfl
  · exact yields_failure

/-- **A value lists no key twice**, however deep its tables are nested. -/
theorem yields_value (depth : Nat) : Yields (value depth) Value.Distinct := by
  induction depth with
  | zero => exact yields_scalar
  | succ depth ih =>
      refine yields_bind fun next => ?_
      split
      · exact yields_bind fun _ => (yields_arrayItems ih).bind fun items hitems =>
          yields_pure (.array hitems)
      · exact yields_bind fun _ => (yields_bracedEntries ih).bind fun entries hentries =>
          yields_pure hentries
      · exact yields_scalar

/-! ## Sections -/

/-- The value of an entry lists no key twice. -/
def Statement.Distinct : Statement → Prop
  | .entry _ _ value => value.Distinct
  | .blank | .header _ _ _ => True

theorem yields_statement : Yields statement Statement.Distinct := by
  refine yields_bind fun next => ?_
  split
  · exact yields_failure
  · exact yields_bind fun _ => yields_bind fun _ => yields_pure trivial
  · exact yields_bind fun _ => yields_bind fun _ => yields_bind fun _ => yields_bind fun _ => by
      split
      · exact yields_bind fun _ => yields_bind fun _ => yields_pure trivial
      · exact yields_bind fun _ => yields_pure trivial
  · exact yields_bind fun _ => yields_pure trivial
  · exact yields_bind fun _ => yields_pure trivial
  · exact yields_bind fun _ => yields_bind fun _ => yields_bind fun _ =>
      (yields_value maxDepth).bind fun v hv => yields_bind fun _ => yields_pure hv

theorem yields_statements : Yields statements fun all => ∀ s ∈ all, s.Distinct := by
  have hline : Yields (do let s ← statement; blanks; return s) Statement.Distinct :=
    yields_statement.bind fun s hs => yields_bind fun _ => yields_pure hs
  refine yields_bind fun _ => yields_bind fun _ => hline.many.bind fun all hall => ?_
  exact yields_bind fun _ => yields_pure hall

/-- A document under construction in which no table lists a key twice. -/
structure Sections.Kept (s : Sections) : Prop where
  /-- The sections that are closed. -/
  root : Toml.Kept s.root.entries
  /-- The open section. -/
  current : Toml.Kept s.current.entries

namespace Sections

variable {s s' : Sections}

theorem Kept.close {d : Draft} (h : s.Kept) (hclose : s.close = some d) : Toml.Kept d.entries := by
  unfold Sections.close at hclose
  split at hclose
  · obtain rfl := Option.some.inj hclose
    exact h.current
  · obtain ⟨⟨_, root⟩, hwithin, heq⟩ := Option.bind_eq_some_iff.1 hclose
    obtain rfl := Option.some.inj heq
    exact ((Draft.keeps_putSection _ _ h.current).within false _ _ _ _ h.root hwithin).2

theorem Kept.add {statement : Statement} (h : s.Kept) (hstatement : statement.Distinct)
    (hadd : s.add statement = some s') : s'.Kept := by
  cases statement with
  | blank =>
      obtain rfl := Option.some.inj hadd
      exact h
  | entry path key value =>
      obtain ⟨current, hcurrent, heq⟩ := Option.bind_eq_some_iff.1 hadd
      obtain rfl := Option.some.inj heq
      exact ⟨h.root, Draft.kept_addEntry h.current hstatement hcurrent⟩
  | header listed path key =>
      cases listed with
      | true =>
          obtain ⟨closed, hclosed, hadd⟩ := Option.bind_eq_some_iff.1 hadd
          obtain ⟨⟨_, root⟩, hwithin, heq⟩ := Option.bind_eq_some_iff.1 hadd
          obtain rfl := Option.some.inj heq
          exact ⟨((Draft.keeps_openList key).within false _ _ _ _ (h.close hclosed) hwithin).2,
            kept_nil⟩
      | false =>
          obtain ⟨closed, hclosed, hadd⟩ := Option.bind_eq_some_iff.1 hadd
          obtain ⟨⟨current, root⟩, hwithin, heq⟩ := Option.bind_eq_some_iff.1 hadd
          obtain rfl := Option.some.inj heq
          obtain ⟨hcurrent, hroot⟩ :=
            (Draft.keeps_takeTable key).within false _ _ _ _ (h.close hclosed) hwithin
          exact ⟨hroot, hcurrent⟩

theorem Kept.foldlM {all : List Statement} (h : s.Kept) (hall : ∀ statement ∈ all, statement.Distinct)
    (hfold : all.foldlM Sections.add s = some s') : s'.Kept := by
  induction all generalizing s with
  | nil =>
      obtain rfl := Option.some.inj hfold
      exact h
  | cons statement rest ih =>
      obtain ⟨hstatement, hrest⟩ := List.forall_mem_cons.1 hall
      obtain ⟨next, hnext, hfold⟩ := Option.bind_eq_some_iff.1 hfold
      exact ih (h.add hstatement hnext) hrest hfold

end Sections

/-- **No table of a document lists a key twice**, neither the document itself nor any table in it. -/
theorem distinct_of_parse {text : String} {entries : Entries} (h : parse text = some entries) :
    (Value.table entries).Distinct := by
  obtain ⟨⟨all, rest⟩, hall, h⟩ := Option.bind_eq_some_iff.1 h
  obtain ⟨sections, hsections, h⟩ := Option.bind_eq_some_iff.1 h
  obtain ⟨root, hroot, h⟩ := Option.bind_eq_some_iff.1 h
  obtain rfl := Option.some.inj h
  have hstatements := yields_statements text.toList all rest hall
  have hkept := Sections.Kept.foldlM (s := {}) ⟨kept_nil, kept_nil⟩ hstatements hsections
  exact kept_iff.1 (hkept.close hroot)

end SpecLint.Toml
