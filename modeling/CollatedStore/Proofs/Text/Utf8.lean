import CollatedStore.Text.Utf8

/-!
The bytes of a text are read back as that text, character by character. Only the ASCII characters
have bytes below 0x80.
-/
namespace CollatedStore.Utf8

variable {b low high code n v : Nat} {x : UInt8} {rest : Bytes} {c : Char}

theorem lead_two (from_low : 0xC2 ≤ b) (to_high : b ≤ 0xDF) :
    lead b = some (b % 0x20, 1, 0x80, 0xBF) :=
  if_pos ⟨from_low, to_high⟩

theorem lead_three (from_low : 0xE0 ≤ b) (to_high : b ≤ 0xEF) :
    lead b = some (b % 0x10, 2, if b = 0xE0 then 0xA0 else 0x80,
      if b = 0xED then 0x9F else 0xBF) := by
  unfold lead
  rw [if_neg (by omega)]
  by_cases first : b = 0xE0
  · subst first; rfl
  by_cases surrogates : b = 0xED
  · subst surrogates; rfl
  rw [if_neg first, if_neg surrogates, if_pos ⟨by omega, to_high⟩, if_neg first, if_neg surrogates]

theorem lead_four (from_low : 0xF0 ≤ b) (to_high : b ≤ 0xF4) :
    lead b = some (b % 0x08, 3, if b = 0xF0 then 0x90 else 0x80,
      if b = 0xF4 then 0x8F else 0xBF) := by
  unfold lead
  rw [if_neg (by omega), if_neg (by omega), if_neg (by omega), if_neg (by omega)]
  by_cases first : b = 0xF0
  · subst first; rfl
  by_cases last : b = 0xF4
  · subst last; rfl
  rw [if_neg first, if_neg last, if_pos (by omega), if_neg first, if_neg last]

theorem follow_cons (fits : low ≤ x.toNat ∧ x.toNat ≤ high) :
    follow (n + 1) low high code (x :: rest) =
      follow n 0x80 0xBF (code * 0x40 + x.toNat % 0x40) rest := by
  rw [follow, if_pos fits]

theorem part_short (short : x.toNat < 0x80) :
    part x rest = (some (Char.ofNat x.toNat), rest) :=
  if_pos (UInt8.lt_iff_toNat_lt.mpr short)

theorem part_long (long : 0x80 ≤ x.toNat) (leads : lead x.toNat = some (code, n, low, high)) :
    part x rest = ((follow n low high code rest).1.map Char.ofNat,
      (follow n low high code rest).2) := by
  have short : ¬ x < 0x80 := fun less => Nat.not_lt.mpr long (UInt8.lt_iff_toNat_lt.mp less)
  simp only [part, if_neg short, leads]

/-- The bytes of a character, whatever follows them, are read as that character. -/
theorem part_utf8EncodeChar (c : Char) (rest : Bytes) :
    ∃ x tail, String.utf8EncodeChar c = x :: tail ∧ part x (tail ++ rest) = (some c, rest) := by
  have read : Char.ofNat c.val.toNat = c := Char.ofNat_toNat c
  have valid : c.val.toNat < 0xD800 ∨ 0xDFFF < c.val.toNat ∧ c.val.toNat < 0x110000 := c.valid
  have byte : ∀ m, m < 256 → (UInt8.ofNat m).toNat = m := fun m small =>
    UInt8.toNat_ofNat_of_lt small
  unfold String.utf8EncodeChar
  generalize c.val.toNat = v at read valid
  dsimp only
  have third := byte (v % 64 + 128) (by omega)
  have second := byte (v / 64 % 64 + 128) (by omega)
  split
  · have first := byte v (by omega)
    refine ⟨_, _, rfl, ?_⟩
    rw [part_short (by omega), first, read]
    rfl
  split
  · have first := byte (v / 64 % 32 + 192) (by omega)
    refine ⟨_, _, rfl, ?_⟩
    rw [part_long (by omega) (lead_two (by omega) (by omega))]
    simp only [List.cons_append, List.nil_append]
    rw [follow_cons (by omega), follow, first, third]
    have whole : (v / 64 % 32 + 192) % 0x20 * 0x40 + (v % 64 + 128) % 0x40 = v := by omega
    simp only [whole, Option.map_some, read]
  split
  · have first := byte (v / 4096 % 16 + 224) (by omega)
    refine ⟨_, _, rfl, ?_⟩
    rw [part_long (by omega) (lead_three (by omega) (by omega))]
    simp only [List.cons_append, List.nil_append]
    -- The lead bytes that bound what follows them bound it as the character does.
    have fits : (if v / 4096 % 16 + 224 = 0xE0 then 0xA0 else 0x80) ≤ v / 64 % 64 + 128 ∧
        v / 64 % 64 + 128 ≤ if v / 4096 % 16 + 224 = 0xED then 0x9F else 0xBF := by
      constructor <;> split <;> omega
    rw [first, follow_cons (by rw [second]; exact fits), follow_cons (by omega), follow, second,
      third]
    have whole : ((v / 4096 % 16 + 224) % 0x10 * 0x40 + (v / 64 % 64 + 128) % 0x40) * 0x40 +
        (v % 64 + 128) % 0x40 = v := by omega
    simp only [whole, Option.map_some, read]
  · have first := byte (v / 262144 % 8 + 240) (by omega)
    have next := byte (v / 4096 % 64 + 128) (by omega)
    refine ⟨_, _, rfl, ?_⟩
    rw [part_long (by omega) (lead_four (by omega) (by omega))]
    simp only [List.cons_append, List.nil_append]
    have fits : (if v / 262144 % 8 + 240 = 0xF0 then 0x90 else 0x80) ≤ v / 4096 % 64 + 128 ∧
        v / 4096 % 64 + 128 ≤ if v / 262144 % 8 + 240 = 0xF4 then 0x8F else 0xBF := by
      constructor <;> split <;> omega
    rw [first, follow_cons (by rw [next]; exact fits), follow_cons (by omega),
      follow_cons (by omega), follow, next, second, third]
    have whole : (((v / 262144 % 8 + 240) % 0x08 * 0x40 + (v / 4096 % 64 + 128) % 0x40) * 0x40 +
        (v / 64 % 64 + 128) % 0x40) * 0x40 + (v % 64 + 128) % 0x40 = v := by omega
    simp only [whole, Option.map_some, read]

theorem partsUpTo_flatMap (text : List Char) {fuel : Nat}
    (enough : (text.flatMap String.utf8EncodeChar).length ≤ fuel) :
    partsUpTo fuel (text.flatMap String.utf8EncodeChar) = text.map some := by
  induction text generalizing fuel with
  | nil => cases fuel <;> rfl
  | cons c text ih =>
    obtain ⟨x, tail, bytes, read⟩ := part_utf8EncodeChar c (text.flatMap String.utf8EncodeChar)
    rw [List.flatMap_cons, bytes] at enough ⊢
    simp only [List.cons_append, List.length_cons, List.length_append] at enough
    cases fuel with
    | zero => omega
    | succ fuel =>
      simp only [List.cons_append, partsUpTo, read, List.map_cons]
      rw [ih (by omega)]

/-- Only an ASCII character has a byte below 0x80. -/
theorem long_of_mem_utf8EncodeChar (long : 0x80 ≤ c.toNat) (mem : x ∈ String.utf8EncodeChar c) :
    0x80 ≤ x.toNat := by
  have valid : c.val.toNat < 0xD800 ∨ 0xDFFF < c.val.toNat ∧ c.val.toNat < 0x110000 := c.valid
  have byte : ∀ m, 0x80 ≤ m → m < 256 → 0x80 ≤ (UInt8.ofNat m).toNat := by
    intro m large small
    rwa [UInt8.toNat_ofNat_of_lt' small]
  unfold String.utf8EncodeChar at mem
  change 0x80 ≤ c.val.toNat at long
  generalize c.val.toNat = v at long valid mem
  dsimp only at mem
  rw [if_neg (by omega)] at mem
  split at mem
  · simp only [List.mem_cons, List.not_mem_nil, or_false] at mem
    obtain rfl | rfl := mem <;> exact byte _ (by omega) (by omega)
  split at mem
  · simp only [List.mem_cons, List.not_mem_nil, or_false] at mem
    obtain rfl | rfl | rfl := mem <;> exact byte _ (by omega) (by omega)
  · simp only [List.mem_cons, List.not_mem_nil, or_false] at mem
    obtain rfl | rfl | rfl | rfl := mem <;> exact byte _ (by omega) (by omega)

theorem utf8EncodeChar_short (short : c.toNat < 0x80) :
    String.utf8EncodeChar c = [UInt8.ofNat c.toNat] := by
  have one : c.utf8Size = 1 := by
    rw [Char.utf8Size_eq_one_iff, UInt32.le_iff_toNat_le]
    exact Nat.le_of_lt_succ short
  rw [String.utf8EncodeChar_eq_singleton one]
  rfl

theorem map_flatMap_short {text : List Char} (short : ∀ c ∈ text, c.toNat < 0x80) :
    (text.flatMap String.utf8EncodeChar).map (fun x => Char.ofNat x.toNat) = text := by
  induction text with
  | nil => rfl
  | cons c text ih =>
    obtain ⟨first, others⟩ := List.forall_mem_cons.mp short
    have read : (UInt8.ofNat c.toNat).toNat = c.toNat :=
      UInt8.toNat_ofNat_of_lt' (Nat.lt_trans first (by decide))
    rw [List.flatMap_cons, utf8EncodeChar_short first, List.map_append, ih others,
      List.map_singleton, read, Char.ofNat_toNat]
    rfl

theorem encode_eq (text : String) : encode text = text.toList.flatMap String.utf8EncodeChar := by
  have bytes : text.toByteArray = text.toList.utf8Encode := by
    rw [← String.toByteArray_ofList, String.ofList_toList]
  rw [encode, bytes, List.utf8Encode]
  simp

/-- The bytes of a text are read back as the text, also where unreadable bytes would be replaced. -/
theorem decodeLossy_encode (text : String) : decodeLossy (encode text) = text := by
  rw [decodeLossy, parts, encode_eq, partsUpTo_flatMap text.toList (Nat.le_refl _), List.map_map]
  have same : (fun c : Option Char => c.getD '\uFFFD') ∘ some = id := rfl
  rw [same, List.map_id, String.ofList_toList]

end CollatedStore.Utf8
