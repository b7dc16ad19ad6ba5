import SpecLint.Text.Lossy

/-!
# Bytes that are text

The bytes of a text are those of its characters in a row.  Reading them as UTF-8 gives the text
back, and so does the reading that replaces what is no character.  A slash takes no part in the
encoding of any other character, so that a byte string can be read piece by piece between its
slashes.

* `Text.utf8?_eq_some_iff` — a byte string reads as a text exactly when it is the text's bytes.
* `Text.bytesOf_append` — the bytes of two texts in a row.
* `Text.lossy_bytesOf` — **the bytes of a text are shown as that text**.
* `Text.lossyChars_append_slash` — a byte string is shown piece by piece between its slashes.
-/

namespace SpecLint.Text

/-! ## UTF-8 -/

theorem bytesOf_ofList (chars : List Char) :
    bytesOf (String.ofList chars) = chars.flatMap String.utf8EncodeChar := by
  rw [bytesOf, String.toUTF8_eq_toByteArray, String.toByteArray_ofList, List.utf8Encode,
    List.data_toByteArray]

/-- The bytes of a text are those of its characters in a row. -/
theorem bytesOf_eq (text : String) : bytesOf text = text.toList.flatMap String.utf8EncodeChar := by
  rw [← bytesOf_ofList, String.ofList_toList]

@[simp] theorem bytesOf_append (first second : String) :
    bytesOf (first ++ second) = bytesOf first ++ bytesOf second := by
  simp [bytesOf_eq]

/-- A byte string reads as a text exactly when it is the bytes of that text. -/
theorem utf8?_eq_some_iff {bytes : List UInt8} {text : String} :
    utf8? bytes = some text ↔ bytesOf text = bytes := by
  unfold utf8? String.fromUTF8?
  constructor
  · intro h
    split at h
    · obtain rfl := Option.some.inj h
      rfl
    · cases h
  · intro h
    subst h
    have hbytes : (⟨(bytesOf text).toArray⟩ : ByteArray) = text.toByteArray := rfl
    rw [hbytes, dif_pos text.isValidUTF8]
    rfl

/-- A character of seven bits stands among the bytes of a text as it is. -/
theorem mem_bytesOf {text : String} {c : Char} (hc : c.toNat ≤ 127) (h : c ∈ text.toList) :
    UInt8.ofNat c.toNat ∈ bytesOf text := by
  have hbytes : String.utf8EncodeChar c = [UInt8.ofNat c.toNat] := if_pos hc
  rw [bytesOf_eq, List.mem_flatMap]
  exact ⟨c, h, hbytes ▸ List.mem_singleton_self _⟩

/-! ## Reading that replaces what is no character -/

/-- Bytes that continue a character are taken up to the last of them. -/
theorem continuing_append {more : List UInt8} (h : ∀ byte ∈ more, 0x80 ≤ byte ∧ byte ≤ 0xbf)
    (rest : List UInt8) : continuing more.length 0x80 0xbf (more ++ rest) = more := by
  induction more with
  | nil => cases rest <;> rfl
  | cons byte more ih =>
      rw [List.length_cons, List.cons_append, continuing, if_pos (h byte List.mem_cons_self),
        ih fun b hb => h b (List.mem_cons_of_mem _ hb)]

/-- A complete sequence of bytes is shown as its character. -/
theorem lossyChars_sequence {first second low high : UInt8} {more : List UInt8}
    (hfirst : 0x80 ≤ first) (hrange : continuation first = (more.length + 1, low, high))
    (hsecond : low ≤ second ∧ second ≤ high) (hmore : ∀ byte ∈ more, 0x80 ≤ byte ∧ byte ≤ 0xbf)
    (rest : List UInt8) : lossyChars (first :: second :: (more ++ rest)) =
      assemble first (second :: more) :: lossyChars rest := by
  have hfollowing : continuing (more.length + 1) low high (second :: (more ++ rest)) =
      second :: more := by
    rw [continuing, if_pos hsecond, continuing_append hmore]
  rw [lossyChars, if_neg (UInt8.not_lt.2 hfirst)]
  simp [hrange, hfollowing]

/-! The three ranges of first bytes. -/

theorem continuation_two {first : UInt8} (h : 0xc2 ≤ first) (h' : first ≤ 0xdf) :
    continuation first = (1, 0x80, 0xbf) := by
  unfold continuation
  grind

theorem continuation_three {first : UInt8} (h : 0xe0 ≤ first) (h' : first ≤ 0xef) :
    continuation first =
      (2, if first = 0xe0 then 0xa0 else 0x80, if first = 0xed then 0x9f else 0xbf) := by
  unfold continuation
  grind

theorem continuation_four {first : UInt8} (h : 0xf0 ≤ first) (h' : first ≤ 0xf4) :
    continuation first =
      (3, if first = 0xf0 then 0x90 else 0x80, if first = 0xf4 then 0x8f else 0xbf) := by
  unfold continuation
  grind

/-! ### The bytes of one character

A character of more than seven bits has two to four bytes.  In each case the range of the first byte
tells how many follow, and within it the ends are told apart by the second byte. -/

section Encoded

variable {c : Char}

theorem toNat_lt (c : Char) : c.toNat < 0x110000 ∧ (c.toNat < 0xd800 ∨ 0xdfff < c.toNat) := by
  rcases c.valid with h | ⟨h, h'⟩
  · have h : c.toNat < 0xd800 := h
    omega
  · have h : 0xdfff < c.toNat := h
    have h' : c.toNat < 0x110000 := h'
    omega

theorem toNat_ofNat {n : Nat} (h : n < 256) : (UInt8.ofNat n).toNat = n := by
  rw [UInt8.toNat_ofNat']
  exact Nat.mod_eq_of_lt h

theorem exists_byte {n : Nat} (h : n < 256) : ∃ byte, byte = UInt8.ofNat n ∧ byte.toNat = n :=
  ⟨_, rfl, toNat_ofNat h⟩

/-- A byte that continues a character. -/
theorem within_continuing (n : Nat) :
    0x80 ≤ UInt8.ofNat (n % 64 + 128) ∧ UInt8.ofNat (n % 64 + 128) ≤ 0xbf := by
  have hbyte : (UInt8.ofNat (n % 64 + 128)).toNat = n % 64 + 128 := toNat_ofNat (by omega)
  rw [UInt8.le_iff_toNat_le, UInt8.le_iff_toNat_le, hbyte]
  simp
  omega

/-- A second byte is in its range when it is so after the first bytes at the ends. -/
theorem within_ends {first second least greatest low high : UInt8}
    (h : 0x80 ≤ second ∧ second ≤ 0xbf)
    (hlow : first.toNat = least.toNat → low.toNat ≤ second.toNat)
    (hhigh : first.toNat = greatest.toNat → second.toNat ≤ high.toNat) :
    (if first = least then low else 0x80) ≤ second ∧
      second ≤ if first = greatest then high else 0xbf := by
  constructor
  · split
    · next heq => exact UInt8.le_iff_toNat_le.2 (hlow (congrArg UInt8.toNat heq))
    · exact h.1
  · split
    · next heq => exact UInt8.le_iff_toNat_le.2 (hhigh (congrArg UInt8.toNat heq))
    · exact h.2

/-- The first 128 characters have one byte each. -/
theorem lossyChars_one (h : c.toNat ≤ 127) (rest : List UInt8) :
    lossyChars (String.utf8EncodeChar c ++ rest) = c :: lossyChars rest := by
  have hbytes : String.utf8EncodeChar c = [UInt8.ofNat c.toNat] := if_pos h
  have hbyte : (UInt8.ofNat c.toNat).toNat = c.toNat := toNat_ofNat (by omega)
  have hlow : UInt8.ofNat c.toNat < 0x80 := by
    rw [UInt8.lt_iff_toNat_lt, hbyte]
    exact Nat.lt_succ_of_le h
  rw [hbytes, List.singleton_append, lossyChars, if_pos hlow, hbyte, Char.ofNat_toNat]

/-- From 128 on a character has two bytes. -/
theorem lossyChars_two (h : 127 < c.toNat) (h' : c.toNat ≤ 2047) (rest : List UInt8) :
    lossyChars (String.utf8EncodeChar c ++ rest) = c :: lossyChars rest := by
  obtain ⟨first, hfirst, nfirst⟩ := exists_byte (show c.toNat / 64 % 32 + 192 < 256 by omega)
  obtain ⟨second, hsecond, nsecond⟩ := exists_byte (show c.toNat % 64 + 128 < 256 by omega)
  have hbytes : String.utf8EncodeChar c = [first, second] := by
    rw [hfirst, hsecond]
    exact (if_neg (Nat.not_le.2 h)).trans (if_pos h')
  have hvalue : assemble first [second] =
      Char.ofNat (64 * (first.toNat % 32) + second.toNat % 64) := rfl
  have hsame : 64 * (first.toNat % 32) + second.toNat % 64 = c.toNat := by omega
  rw [hsame, Char.ofNat_toNat] at hvalue
  have hlow : (0xc2 : UInt8) ≤ first := UInt8.le_iff_toNat_le.2 (by show 194 ≤ first.toNat; omega)
  have hhigh : first ≤ 0xdf := UInt8.le_iff_toNat_le.2 (by show first.toNat ≤ 223; omega)
  have hshown := @lossyChars_sequence first second 0x80 0xbf [] (UInt8.le_trans (by decide) hlow)
    (continuation_two hlow hhigh) (hsecond ▸ within_continuing c.toNat) (by simp) rest
  rw [hvalue] at hshown
  rw [hbytes]
  exact hshown

/-- From 2048 on it has three.  What the second byte may be depends on the first: the encodings of
smaller characters are left out, and so is what is no character. -/
theorem lossyChars_three (h : 2047 < c.toNat) (h' : c.toNat ≤ 65535) (rest : List UInt8) :
    lossyChars (String.utf8EncodeChar c ++ rest) = c :: lossyChars rest := by
  have hvalid := (toNat_lt c).2
  obtain ⟨first, hfirst, nfirst⟩ := exists_byte (show c.toNat / 4096 % 16 + 224 < 256 by omega)
  obtain ⟨second, hsecond, nsecond⟩ := exists_byte (show c.toNat / 64 % 64 + 128 < 256 by omega)
  obtain ⟨third, hthird, nthird⟩ := exists_byte (show c.toNat % 64 + 128 < 256 by omega)
  have hbytes : String.utf8EncodeChar c = [first, second, third] := by
    have hone : ¬ c.toNat ≤ 127 := by omega
    rw [hfirst, hsecond, hthird]
    exact ((if_neg hone).trans (if_neg (Nat.not_le.2 h))).trans (if_pos h')
  have hvalue : assemble first [second, third] =
      Char.ofNat (64 * (64 * (first.toNat % 16) + second.toNat % 64) + third.toNat % 64) := rfl
  have hsame : 64 * (64 * (first.toNat % 16) + second.toNat % 64) + third.toNat % 64 = c.toNat := by
    omega
  rw [hsame, Char.ofNat_toNat] at hvalue
  have hlow : (0xe0 : UInt8) ≤ first := UInt8.le_iff_toNat_le.2 (by show 224 ≤ first.toNat; omega)
  have hhigh : first ≤ 0xef := UInt8.le_iff_toNat_le.2 (by show first.toNat ≤ 239; omega)
  have hrange : (if first = 0xe0 then 0xa0 else 0x80) ≤ second ∧
      second ≤ if first = 0xed then 0x9f else 0xbf := by
    apply within_ends (hsecond ▸ within_continuing (c.toNat / 64))
    · show first.toNat = 224 → 160 ≤ second.toNat
      omega
    · show first.toNat = 237 → second.toNat ≤ 159
      omega
  have hmore : ∀ byte ∈ [third], 0x80 ≤ byte ∧ byte ≤ 0xbf := by
    simpa [hthird] using within_continuing c.toNat
  have hshown := @lossyChars_sequence first second _ _ [third] (UInt8.le_trans (by decide) hlow)
    (continuation_three hlow hhigh) hrange hmore rest
  rw [hvalue] at hshown
  rw [hbytes]
  exact hshown

/-- The others have four. -/
theorem lossyChars_four (h : 65535 < c.toNat) (rest : List UInt8) :
    lossyChars (String.utf8EncodeChar c ++ rest) = c :: lossyChars rest := by
  have hvalid := (toNat_lt c).1
  obtain ⟨first, hfirst, nfirst⟩ := exists_byte (show c.toNat / 262144 % 8 + 240 < 256 by omega)
  obtain ⟨second, hsecond, nsecond⟩ := exists_byte (show c.toNat / 4096 % 64 + 128 < 256 by omega)
  obtain ⟨third, hthird, nthird⟩ := exists_byte (show c.toNat / 64 % 64 + 128 < 256 by omega)
  obtain ⟨fourth, hfourth, nfourth⟩ := exists_byte (show c.toNat % 64 + 128 < 256 by omega)
  have hbytes : String.utf8EncodeChar c = [first, second, third, fourth] := by
    have hone : ¬ c.toNat ≤ 127 := by omega
    have htwo : ¬ c.toNat ≤ 2047 := by omega
    rw [hfirst, hsecond, hthird, hfourth]
    exact ((if_neg hone).trans (if_neg htwo)).trans (if_neg (Nat.not_le.2 h))
  have hvalue : assemble first [second, third, fourth] =
      Char.ofNat (64 * (64 * (64 * (first.toNat % 8) + second.toNat % 64) + third.toNat % 64) +
        fourth.toNat % 64) := rfl
  have hsame : 64 * (64 * (64 * (first.toNat % 8) + second.toNat % 64) + third.toNat % 64) +
      fourth.toNat % 64 = c.toNat := by omega
  rw [hsame, Char.ofNat_toNat] at hvalue
  have hlow : (0xf0 : UInt8) ≤ first := UInt8.le_iff_toNat_le.2 (by show 240 ≤ first.toNat; omega)
  have hhigh : first ≤ 0xf4 := UInt8.le_iff_toNat_le.2 (by show first.toNat ≤ 244; omega)
  have hrange : (if first = 0xf0 then 0x90 else 0x80) ≤ second ∧
      second ≤ if first = 0xf4 then 0x8f else 0xbf := by
    apply within_ends (hsecond ▸ within_continuing (c.toNat / 4096))
    · show first.toNat = 240 → 144 ≤ second.toNat
      omega
    · show first.toNat = 244 → second.toNat ≤ 143
      omega
  have hmore : ∀ byte ∈ [third, fourth], 0x80 ≤ byte ∧ byte ≤ 0xbf := by
    simpa [hthird, hfourth] using
      And.intro (within_continuing (c.toNat / 64)) (within_continuing c.toNat)
  have hshown := @lossyChars_sequence first second _ _ [third, fourth]
    (UInt8.le_trans (by decide) hlow) (continuation_four hlow hhigh) hrange hmore rest
  rw [hvalue] at hshown
  rw [hbytes]
  exact hshown

end Encoded

theorem lossyChars_ne_nil {bytes : List UInt8} (h : bytes ≠ []) : lossyChars bytes ≠ [] := by
  cases bytes with
  | nil => exact absurd rfl h
  | cons first rest =>
      rw [lossyChars]
      split <;> exact List.cons_ne_nil _ _

/-- The bytes of a character in front are read as that character. -/
theorem lossyChars_utf8EncodeChar (c : Char) (rest : List UInt8) :
    lossyChars (String.utf8EncodeChar c ++ rest) = c :: lossyChars rest := by
  by_cases hone : c.toNat ≤ 127
  · exact lossyChars_one hone rest
  · by_cases htwo : c.toNat ≤ 2047
    · exact lossyChars_two (Nat.not_le.1 hone) htwo rest
    · by_cases hthree : c.toNat ≤ 65535
      · exact lossyChars_three (Nat.not_le.1 htwo) hthree rest
      · exact lossyChars_four (Nat.not_le.1 hthree) rest

/-- The bytes of a text in front are read as that text. -/
theorem lossyChars_bytesOf_append (text : String) (rest : List UInt8) :
    lossyChars (bytesOf text ++ rest) = text.toList ++ lossyChars rest := by
  rw [bytesOf_eq]
  induction text.toList with
  | nil => rfl
  | cons c chars ih =>
      rw [List.flatMap_cons, List.append_assoc, lossyChars_utf8EncodeChar, ih, List.cons_append]

/-- The bytes of a text are shown as that text. -/
theorem lossy_bytesOf (text : String) : lossy (bytesOf text) = text := by
  have h := lossyChars_bytesOf_append text []
  rw [List.append_nil, lossyChars, List.append_nil] at h
  rw [lossy, h, String.ofList_toList]

/-- The bytes of what is shown for a byte string that is UTF-8. -/
theorem bytesOf_lossy {bytes : List UInt8} (h : (utf8? bytes).isSome) :
    bytesOf (lossy bytes) = bytes := by
  obtain ⟨text, htext⟩ := Option.isSome_iff_exists.1 h
  rw [← utf8?_eq_some_iff.1 htext, lossy_bytesOf]

/-- A character of seven bits that is shown for a byte string that is UTF-8 stands among its
bytes. -/
theorem mem_of_mem_lossyChars {bytes : List UInt8} {c : Char} (h : (utf8? bytes).isSome)
    (hc : c.toNat ≤ 127) (hmem : c ∈ lossyChars bytes) : UInt8.ofNat c.toNat ∈ bytes := by
  have hshown : c ∈ (lossy bytes).toList := by rwa [lossy, String.toList_ofList]
  have hbyte := mem_bytesOf hc hshown
  rwa [bytesOf_lossy h] at hbyte

/-- A character of seven bits with which a text begins is the first of its bytes. -/
theorem head?_of_lossyChars {bytes : List UInt8} {c : Char} {rest : List Char}
    (h : (utf8? bytes).isSome) (hc : c.toNat ≤ 127) (hchars : lossyChars bytes = c :: rest) :
    bytes.head? = some (UInt8.ofNat c.toNat) := by
  have hbyte : String.utf8EncodeChar c = [UInt8.ofNat c.toNat] := if_pos hc
  rw [← bytesOf_lossy h, lossy, bytesOf_ofList, hchars, List.flatMap_cons, hbyte]
  rfl

/-! ## Slashes

A slash continues no character, so that the bytes before it are shown the same whatever follows. -/

theorem low_of_continuation (first : UInt8) :
    (continuation first).1 = 0 ∨ 0x80 ≤ (continuation first).2.1 := by
  unfold continuation
  grind

theorem continuing_append_slash (count : Nat) {low high : UInt8} (hlow : 0x80 ≤ low)
    (bytes rest : List UInt8) :
    continuing count low high (bytes ++ 47 :: rest) = continuing count low high bytes := by
  induction bytes generalizing count low high with
  | nil =>
      cases count with
      | zero => rfl
      | succ count =>
          have hslash : ¬ (low ≤ 47 ∧ (47 : UInt8) ≤ high) := fun h =>
            absurd (UInt8.le_trans hlow h.1) (by decide)
          exact if_neg hslash
  | cons byte bytes ih =>
      cases count with
      | zero => rfl
      | succ count => rw [List.cons_append, continuing, continuing, ih count (by decide)]

theorem length_continuing_le (count : Nat) (low high : UInt8) (bytes : List UInt8) :
    (continuing count low high bytes).length ≤ bytes.length := by
  induction bytes generalizing count low high with
  | nil => cases count <;> exact Nat.le_refl 0
  | cons byte bytes ih =>
      cases count with
      | zero => exact Nat.zero_le _
      | succ count =>
          rw [continuing]
          split
          · exact Nat.succ_le_succ (ih count 0x80 0xbf)
          · exact Nat.zero_le _

/-- A byte string is shown piece by piece between its slashes. -/
theorem lossyChars_append_slash (bytes rest : List UInt8) :
    lossyChars (bytes ++ 47 :: rest) = lossyChars bytes ++ lossyChars (47 :: rest) := by
  fun_induction lossyChars bytes with
  | case1 => rfl
  | case2 first more hfirst ih =>
      rw [List.cons_append, lossyChars, if_pos hfirst, ih, List.cons_append]
  | case3 first more hfirst count low high hrange following shown ih =>
      have hfollowing : continuing count low high (more ++ 47 :: rest) = following := by
        obtain hzero | hlow := low_of_continuation first
        · rw [hrange] at hzero
          obtain rfl : count = 0 := hzero
          rfl
        · rw [hrange] at hlow
          exact continuing_append_slash count hlow more rest
      have hdrop : (more ++ 47 :: rest).drop following.length =
          more.drop following.length ++ 47 :: rest :=
        List.drop_append_of_le_length (length_continuing_le count low high more)
      rw [List.cons_append, lossyChars, if_neg hfirst, hrange]
      simp only [hfollowing]
      rw [hdrop, ih, List.cons_append]
      rfl

end SpecLint.Text
