import Mathlib.Data.List.Basic
import SpecLint.Json

/-!
# What a written JSON value says

A value can be told from its written form, as long as no number with a fraction occurs in it: five
without a place and fifty with one place are both written `5.0`.  The first character tells a value
from those of another kind.  A string ends at the first quote that is not escaped, a number in front
of what is no digit, and a list or an object where no comma follows.  So the written form also says
where a value ends, and what is put together of several values falls apart again.

* `Json.Whole` — the values without such numbers.
* `Json.escape_flatMap_inj`, `Json.int_append_inj` — where strings and numbers end.
* `Json.decodes_of_whole` — **where a value ends**, by induction on the value.
* `Json.pretty_injective` — **the written form determines the value**.
-/

namespace SpecLint.Json

/-- A value in which no number with a fraction occurs. -/
inductive Whole : Json → Prop where
  | null : Whole .null
  | bool (value : Bool) : Whole (.bool value)
  | int (value : Int) : Whole (.int value)
  | str (value : String) : Whole (.str value)
  | arr {items : List Json} (below : ∀ item ∈ items, Whole item) : Whole (.arr items)
  | obj {fields : List (String × Json)} (below : ∀ field ∈ fields, Whole field.2) :
      Whole (.obj fields)

variable {rest rest' : List Char}

/-! ## Strings -/

/-- The value of a hexadecimal digit. -/
def hexValue (c : Char) : Nat := if c.isDigit then c.toNat - 48 else c.toNat - 87

/-- The first character of the inside of a string, and what comes behind it. -/
def readChar? : List Char → Option (Char × List Char)
  | '\\' :: 'u' :: _ :: _ :: high :: low :: rest =>
      some (Char.ofNat (16 * hexValue high + hexValue low), rest)
  | '\\' :: 'b' :: rest => some ('\x08', rest)
  | '\\' :: 't' :: rest => some ('\t', rest)
  | '\\' :: 'n' :: rest => some ('\n', rest)
  | '\\' :: 'f' :: rest => some ('\x0c', rest)
  | '\\' :: 'r' :: rest => some ('\r', rest)
  | '\\' :: c :: rest => some (c, rest)
  | '"' :: _ => none
  | c :: rest => some (c, rest)
  | [] => none

theorem hexValue_hexDigit : ∀ n < 16, hexValue (hexDigit n) = n := by decide

theorem readChar?_escape (c : Char) (rest : List Char) :
    readChar? (escape c ++ rest) = some (c, rest) := by
  unfold escape
  split
  · subst_vars; rfl
  split
  · subst_vars; rfl
  split
  · subst_vars; rfl
  split
  · subst_vars; rfl
  split
  · subst_vars; rfl
  split
  · subst_vars; rfl
  split
  · subst_vars; rfl
  split
  · rename_i hlow
    have hhigh := hexValue_hexDigit (c.toNat / 16) (by omega)
    have hdigit := hexValue_hexDigit (c.toNat % 16) (by omega)
    have hvalue : 16 * (c.toNat / 16) + c.toNat % 16 = c.toNat := Nat.div_add_mod _ _
    show some (Char.ofNat (16 * hexValue (hexDigit (c.toNat / 16)) +
      hexValue (hexDigit (c.toNat % 16))), rest) = _
    rw [hhigh, hdigit, hvalue, Char.ofNat_toNat]
  · rename_i hquote hbackslash _ _ _ _ _ _
    simp [readChar?, hbackslash]

/-- The inside of a string ends at the first quote that is not escaped. -/
theorem escape_flatMap_inj {chars others : List Char}
    (h : chars.flatMap escape ++ '"' :: rest = others.flatMap escape ++ '"' :: rest') :
    chars = others ∧ rest = rest' := by
  have hread : ∀ (c : Char) (more tail : List Char),
      readChar? ((c :: more).flatMap escape ++ '"' :: tail) =
        some (c, more.flatMap escape ++ '"' :: tail) := by
    intro c more tail
    rw [List.flatMap_cons, List.append_assoc, readChar?_escape]
  have hend : ∀ tail : List Char, readChar? ('"' :: tail) = none := fun _ => rfl
  induction chars generalizing others with
  | nil =>
      cases others with
      | nil => exact ⟨rfl, (List.cons.inj h).2⟩
      | cons c more =>
          have hsame := congrArg readChar? h
          rw [hread] at hsame
          exact nomatch hsame.symm.trans (hend rest)
  | cons c more ih =>
      have hsame := congrArg readChar? h
      rw [hread] at hsame
      cases others with
      | nil => exact nomatch hsame.trans (hend rest')
      | cons d more' =>
          rw [hread] at hsame
          obtain ⟨rfl, htail⟩ := Prod.mk.inj (Option.some.inj hsame)
          obtain ⟨rfl, hrest⟩ := ih htail
          exact ⟨rfl, hrest⟩

theorem quote_append_inj {text other : String}
    (h : (quote text).toList ++ rest = (quote other).toList ++ rest') :
    text = other ∧ rest = rest' := by
  simp only [quote, String.toList_ofList, List.cons_append, List.append_assoc, List.nil_append,
    List.cons.injEq, true_and] at h
  obtain ⟨hchars, hrest⟩ := escape_flatMap_inj h
  exact ⟨String.toList_inj.1 hchars, hrest⟩

/-! ## Numbers -/

/-- Whether a number that stands in front of a text ends there. -/
def Ends (rest : List Char) : Prop := ∀ c ∈ rest.head?, c.isDigit = false

theorem ends_cons {c : Char} (h : c.isDigit = false) : Ends (c :: rest) := by
  intro d hd
  obtain rfl := Option.some.inj hd
  exact h

theorem splitAt_digits (n : Nat) (h : Ends rest) :
    (Nat.toDigits 10 n ++ rest).takeWhile Char.isDigit = Nat.toDigits 10 n ∧
      (Nat.toDigits 10 n ++ rest).dropWhile Char.isDigit = rest := by
  have hdigits : ∀ c ∈ Nat.toDigits 10 n, c.isDigit = true := fun c hc =>
    Nat.isDigit_of_mem_toDigits (by decide) (by decide) hc
  rw [List.takeWhile_append_of_pos hdigits, List.dropWhile_append_of_pos hdigits]
  cases rest with
  | nil => simp
  | cons c rest => simp [h c rfl]

theorem digits_append_inj {m n : Nat} (h : Ends rest) (h' : Ends rest')
    (heq : Nat.toDigits 10 m ++ rest = Nat.toDigits 10 n ++ rest') : m = n ∧ rest = rest' := by
  obtain ⟨hdigits, hrest⟩ := splitAt_digits m h
  obtain ⟨hdigits', hrest'⟩ := splitAt_digits n h'
  rw [heq] at hdigits hrest
  have hvalue := congrArg (Nat.ofDigitChars 10 · 0) (hdigits.symm.trans hdigits')
  simp only [Nat.ofDigitChars_ten_toDigits] at hvalue
  exact ⟨hvalue, hrest.symm.trans hrest'⟩

theorem exists_digits (n : Nat) : ∃ c more, Nat.toDigits 10 n = c :: more ∧ c.isDigit = true := by
  obtain ⟨c, more, hdigits⟩ := List.exists_cons_of_ne_nil (@Nat.toDigits_ne_nil n 10)
  have hmem : c ∈ Nat.toDigits 10 n := hdigits ▸ List.mem_cons_self
  exact ⟨c, more, hdigits, Nat.isDigit_of_mem_toDigits (by decide) (by decide) hmem⟩

theorem toList_render_ofNat (level n : Nat) :
    (render level (.int (.ofNat n))).toList = Nat.toDigits 10 n := by
  rw [render]
  exact String.toList_ofList

theorem toList_render_negSucc (level n : Nat) :
    (render level (.int (.negSucc n))).toList = '-' :: Nat.toDigits 10 (n + 1) := by
  rw [render]
  show ("-" ++ Nat.repr (n + 1)).toList = _
  simp [Nat.repr]

/-- A number ends in front of what is no digit. -/
theorem int_append_inj {level : Nat} {value other : Int} (h : Ends rest) (h' : Ends rest')
    (heq : (render level (.int value)).toList ++ rest =
      (render level (.int other)).toList ++ rest') : value = other ∧ rest = rest' := by
  have hsign : ∀ m n : Nat, ∀ tail tail' : List Char,
      Nat.toDigits 10 m ++ tail ≠ '-' :: Nat.toDigits 10 n ++ tail' := by
    intro m n tail tail' hsame
    obtain ⟨c, more, hdigits, hc⟩ := exists_digits m
    rw [hdigits] at hsame
    obtain rfl : c = '-' := (List.cons.inj hsame).1
    exact absurd hc (by decide)
  cases value with
  | ofNat m =>
      rw [toList_render_ofNat] at heq
      cases other with
      | ofNat n =>
          rw [toList_render_ofNat] at heq
          obtain ⟨rfl, hrest⟩ := digits_append_inj h h' heq
          exact ⟨rfl, hrest⟩
      | negSucc n =>
          rw [toList_render_negSucc] at heq
          exact absurd heq (hsign m (n + 1) rest rest')
  | negSucc m =>
      rw [toList_render_negSucc] at heq
      cases other with
      | ofNat n =>
          rw [toList_render_ofNat] at heq
          exact absurd heq.symm (hsign n (m + 1) rest' rest)
      | negSucc n =>
          rw [toList_render_negSucc] at heq
          obtain ⟨hvalue, hrest⟩ := digits_append_inj h h' (List.cons.inj heq).2
          obtain rfl : m = n := Nat.succ.inj hvalue
          exact ⟨rfl, hrest⟩

/-! ## Values -/

theorem toList_lineBreak (level : Nat) :
    (lineBreak level).toList = '\n' :: List.replicate (2 * level) ' ' := by
  simp [lineBreak]

theorem toList_render_arr (level : Nat) (item : Json) (items : List Json) :
    (render level (.arr (item :: items))).toList =
      '[' :: ((lineBreak (level + 1)).toList ++ ((render (level + 1) item).toList ++
        ((renderItems (level + 1) items).toList ++
          '\n' :: (List.replicate (2 * level) ' ' ++ [']'])))) := by
  rw [render]
  simp [toList_lineBreak]

theorem toList_render_obj (level : Nat) (key : String) (value : Json)
    (fields : List (String × Json)) :
    (render level (.obj ((key, value) :: fields))).toList =
      '\x7b' :: ((lineBreak (level + 1)).toList ++ ((quote key).toList ++ ':' :: ' ' ::
        ((render (level + 1) value).toList ++ ((renderFields (level + 1) fields).toList ++
          '\n' :: (List.replicate (2 * level) ' ' ++ ['\x7d']))))) := by
  rw [render]
  simp [toList_lineBreak]

theorem toList_renderItems_cons (level : Nat) (item : Json) (items : List Json) :
    (renderItems level (item :: items)).toList =
      ',' :: ((lineBreak level).toList ++ ((render level item).toList ++
        (renderItems level items).toList)) := by
  rw [renderItems]
  simp

theorem toList_renderFields_cons (level : Nat) (key : String) (value : Json)
    (fields : List (String × Json)) :
    (renderFields level ((key, value) :: fields)).toList =
      ',' :: ((lineBreak level).toList ++ ((quote key).toList ++ ':' :: ' ' ::
        ((render level value).toList ++ (renderFields level fields).toList))) := by
  rw [renderFields]
  simp

/-- The character that stands for a kind of values: that with which most of them begin. -/
def lead : Json → Char
  | .null => 'n'
  | .bool _ => 't'
  | .int _ | .decimal _ _ => '0'
  | .str _ => '"'
  | .arr _ => '['
  | .obj _ => '{'

/-- The kind of the values that begin with a character. -/
def leadOf (c : Char) : Char :=
  if c = 'f' then 't' else if c = '-' ∨ c.isDigit then '0' else c

/-- The first character of a written value says its kind. -/
theorem exists_render (level : Nat) {value : Json} (h : value.Whole) :
    ∃ c more, (render level value).toList = c :: more ∧ leadOf c = lead value := by
  cases h with
  | null => exact ⟨_, _, by rw [render]; rfl, rfl⟩
  | bool value => cases value <;> exact ⟨_, _, by rw [render]; rfl, rfl⟩
  | int value =>
      cases value with
      | ofNat n =>
          obtain ⟨c, more, hdigits, hc⟩ := exists_digits n
          refine ⟨c, more, by rw [toList_render_ofNat, hdigits], ?_⟩
          have hne : c ≠ 'f' := by
            rintro rfl
            exact absurd hc (by decide)
          simp [leadOf, lead, hc, hne]
      | negSucc n => exact ⟨_, _, toList_render_negSucc level n, rfl⟩
  | str text => exact ⟨_, _, by rw [render, quote, String.toList_ofList, List.cons_append], rfl⟩
  | @arr items _ =>
      cases items with
      | nil => exact ⟨_, _, by rw [render]; rfl, rfl⟩
      | cons item items => exact ⟨_, _, toList_render_arr level item items, rfl⟩
  | @obj fields _ =>
      cases fields with
      | nil => exact ⟨_, _, by rw [render]; rfl, rfl⟩
      | cons field fields => exact ⟨_, _, toList_render_obj level field.1 field.2 fields, rfl⟩

/-- Whether it can be told where a value ends when it is written in front of something that does
not begin with a digit. -/
def Decodes (value : Json) : Prop := ∀ {level : Nat} {other : Json} {rest rest' : List Char},
  other.Whole → Ends rest → Ends rest' →
    (render level value).toList ++ rest = (render level other).toList ++ rest' →
      value = other ∧ rest = rest'

theorem ends_items (level : Nat) (items : List Json) (rest : List Char) :
    Ends ((renderItems level items).toList ++ '\n' :: rest) := by
  cases items with
  | nil => exact ends_cons (by decide)
  | cons item items =>
      rw [toList_renderItems_cons]
      exact ends_cons (by decide)

theorem ends_fields (level : Nat) (fields : List (String × Json)) (rest : List Char) :
    Ends ((renderFields level fields).toList ++ '\n' :: rest) := by
  cases fields with
  | nil => exact ends_cons (by decide)
  | cons field fields =>
      rw [toList_renderFields_cons level field.1 field.2]
      exact ends_cons (by decide)

/-- The items of a list after its first end at the first line break without a comma. -/
theorem items_append_inj {level : Nat} {items others : List Json}
    (h : ∀ item ∈ items, Decodes item) (h' : ∀ item ∈ others, item.Whole)
    (heq : (renderItems level items).toList ++ '\n' :: rest =
      (renderItems level others).toList ++ '\n' :: rest') : items = others ∧ rest = rest' := by
  induction items generalizing others with
  | nil =>
      cases others with
      | nil => exact ⟨rfl, (List.cons.inj heq).2⟩
      | cons other others =>
          rw [toList_renderItems_cons] at heq
          exact absurd (List.cons.inj heq).1 (by decide)
  | cons item items ih =>
      rw [toList_renderItems_cons] at heq
      cases others with
      | nil => exact absurd (List.cons.inj heq).1 (by decide)
      | cons other others =>
          rw [toList_renderItems_cons] at heq
          simp only [List.cons_append, List.append_assoc, List.cons.injEq, true_and] at heq
          obtain ⟨hitem, hitems⟩ := List.forall_mem_cons.1 h
          obtain ⟨hother, hothers⟩ := List.forall_mem_cons.1 h'
          obtain ⟨rfl, hmore⟩ := hitem hother (ends_items level items rest)
            (ends_items level others rest') (List.append_cancel_left heq)
          obtain ⟨rfl, hrest⟩ := ih hitems hothers hmore
          exact ⟨rfl, hrest⟩

/-- So do the fields of an object after its first. -/
theorem fields_append_inj {level : Nat} {fields others : List (String × Json)}
    (h : ∀ field ∈ fields, Decodes field.2) (h' : ∀ field ∈ others, field.2.Whole)
    (heq : (renderFields level fields).toList ++ '\n' :: rest =
      (renderFields level others).toList ++ '\n' :: rest') : fields = others ∧ rest = rest' := by
  induction fields generalizing others with
  | nil =>
      cases others with
      | nil => exact ⟨rfl, (List.cons.inj heq).2⟩
      | cons other others =>
          rw [toList_renderFields_cons level other.1 other.2] at heq
          exact absurd (List.cons.inj heq).1 (by decide)
  | cons field fields ih =>
      obtain ⟨key, value⟩ := field
      rw [toList_renderFields_cons] at heq
      cases others with
      | nil => exact absurd (List.cons.inj heq).1 (by decide)
      | cons other others =>
          obtain ⟨key', value'⟩ := other
          rw [toList_renderFields_cons] at heq
          simp only [List.cons_append, List.append_assoc, List.cons.injEq, true_and] at heq
          obtain ⟨hvalue, hfields⟩ := List.forall_mem_cons.1 h
          obtain ⟨hvalue', hothers⟩ := List.forall_mem_cons.1 h'
          obtain ⟨rfl, hmore⟩ := quote_append_inj (List.append_cancel_left heq)
          simp only [List.cons.injEq, true_and] at hmore
          obtain ⟨hsame, htail⟩ := hvalue hvalue' (ends_fields level fields rest)
            (ends_fields level others rest') hmore
          obtain rfl : value = value' := hsame
          obtain ⟨rfl, hrest⟩ := ih hfields hothers htail
          exact ⟨rfl, hrest⟩

/-- Values that are written alike are of one kind. -/
theorem lead_eq {level : Nat} {value other : Json} (h : value.Whole) (h' : other.Whole)
    (heq : (render level value).toList ++ rest = (render level other).toList ++ rest') :
    lead value = lead other := by
  obtain ⟨c, more, hrender, hlead⟩ := exists_render level h
  obtain ⟨c', more', hrender', hlead'⟩ := exists_render level h'
  rw [hrender, hrender'] at heq
  obtain rfl : c = c' := (List.cons.inj heq).1
  exact hlead.symm.trans hlead'

theorem decodes_bool (value : Bool) : Decodes (.bool value) := by
  intro level other rest rest' h' _ _ heq
  have hlead := lead_eq (.bool value) h' heq
  cases h' with
  | bool value' =>
      cases value <;> cases value'
      · exact ⟨rfl, List.append_cancel_left heq⟩
      · simp [render] at heq
      · simp [render] at heq
      · exact ⟨rfl, List.append_cancel_left heq⟩
  | _ => simp [lead] at hlead

theorem decodes_arr {items : List Json} (below : ∀ item ∈ items, Whole item)
    (h : ∀ item ∈ items, Decodes item) : Decodes (.arr items) := by
  intro level other rest rest' h' _ _ heq
  have hlead := lead_eq (.arr below) h' heq
  cases h' with
  | @arr others below' =>
      cases items with
      | nil =>
          cases others with
          | nil => exact ⟨rfl, List.append_cancel_left heq⟩
          | cons other others =>
              rw [toList_render_arr, toList_lineBreak] at heq
              simp [render] at heq
      | cons item items =>
          cases others with
          | nil =>
              rw [toList_render_arr, toList_lineBreak] at heq
              simp [render] at heq
          | cons other others =>
              rw [toList_render_arr, toList_render_arr] at heq
              -- the first item is written like the others, but for the comma
              obtain ⟨hitems, htail⟩ := @items_append_inj
                (List.replicate (2 * level) ' ' ++ ']' :: rest)
                (List.replicate (2 * level) ' ' ++ ']' :: rest') (level + 1) _ _ h below'
                (by simpa [toList_renderItems_cons] using heq)
              exact ⟨congrArg arr hitems, (List.cons.inj (List.append_cancel_left htail)).2⟩
  | _ => simp [lead] at hlead

theorem decodes_obj {fields : List (String × Json)} (below : ∀ field ∈ fields, Whole field.2)
    (h : ∀ field ∈ fields, Decodes field.2) : Decodes (.obj fields) := by
  intro level other rest rest' h' _ _ heq
  have hlead := lead_eq (.obj below) h' heq
  cases h' with
  | @obj others below' =>
      cases fields with
      | nil =>
          cases others with
          | nil => exact ⟨rfl, List.append_cancel_left heq⟩
          | cons other others =>
              rw [toList_render_obj level other.1 other.2, toList_lineBreak] at heq
              simp [render] at heq
      | cons field fields =>
          cases others with
          | nil =>
              rw [toList_render_obj level field.1 field.2, toList_lineBreak] at heq
              simp [render] at heq
          | cons other others =>
              rw [toList_render_obj level field.1 field.2,
                toList_render_obj level other.1 other.2] at heq
              obtain ⟨hfields, htail⟩ := @fields_append_inj
                (List.replicate (2 * level) ' ' ++ '\x7d' :: rest)
                (List.replicate (2 * level) ' ' ++ '\x7d' :: rest') (level + 1) _ _ h below'
                (by simpa [toList_renderFields_cons _ field.1 field.2,
                  toList_renderFields_cons _ other.1 other.2] using heq)
              exact ⟨congrArg obj hfields, (List.cons.inj (List.append_cancel_left htail)).2⟩
  | _ => simp [lead] at hlead

/-- **It can be told where a value ends** in which no number with a fraction occurs. -/
theorem decodes_of_whole {value : Json} (h : value.Whole) : Decodes value := by
  induction h with
  | null =>
      intro level other rest rest' h' _ _ heq
      have hlead := lead_eq .null h' heq
      cases h' with
      | null => exact ⟨rfl, List.append_cancel_left heq⟩
      | _ => simp [lead] at hlead
  | bool value => exact decodes_bool value
  | int value =>
      intro level other rest rest' h' hend hend' heq
      have hlead := lead_eq (.int value) h' heq
      cases h' with
      | int value' =>
          obtain ⟨rfl, hrest⟩ := int_append_inj hend hend' heq
          exact ⟨rfl, hrest⟩
      | _ => simp [lead] at hlead
  | str text =>
      intro level other rest rest' h' _ _ heq
      have hlead := lead_eq (.str text) h' heq
      cases h' with
      | str text' =>
          rw [render, render] at heq
          obtain ⟨rfl, hrest⟩ := quote_append_inj heq
          exact ⟨rfl, hrest⟩
      | _ => simp [lead] at hlead
  | arr below ih => exact decodes_arr below ih
  | obj below ih => exact decodes_obj below ih

/-- **The written form determines the value** where no number with a fraction occurs in it. -/
theorem pretty_injective {value other : Json} (h : value.Whole) (h' : other.Whole)
    (heq : value.pretty = other.pretty) : value = other := by
  have hend : Ends [] := fun c hc => nomatch hc
  have hchars := congrArg (fun text => String.toList text ++ []) heq
  exact (decodes_of_whole h h' hend hend hchars).1

end SpecLint.Json
