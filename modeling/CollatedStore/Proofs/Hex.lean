import CollatedStore.Hex
import CollatedStore.Proofs.Text.Utf8

/-!
Bytes are read back from their hexadecimal digits, and no other text is read than digits in pairs.
Which kind of letter a digit has makes no difference.
-/
namespace CollatedStore.Hex

variable {bytes raw : Bytes} {b : UInt8} {c : Char} {n : Nat} {text : String}

/-- The digits that are written, each at the place of its value. -/
def digits : List Char :=
  ['0', '1', '2', '3', '4', '5', '6', '7', '8', '9', 'a', 'b', 'c', 'd', 'e', 'f']

/-- A digit with a letter of either kind. -/
def IsDigit (c : Char) : Prop := c.toLower ∈ digits

/-- Two of the digits for each byte, its upper half first. -/
structure Written (bytes : Bytes) (text : String) : Prop where
  length : text.toList.length = 2 * bytes.length
  upper : ∀ i b, bytes[i]? = some b → text.toList[2 * i]? = digits[b.toNat / 16]?
  lower : ∀ i b, bytes[i]? = some b → text.toList[2 * i + 1]? = digits[b.toNat % 16]?

/-! ### Single digits -/

theorem getElem?_digits (small : n < 16) : digits[n]? = some (digit n) := by
  have all : ∀ n < 16, digits[n]? = some (digit n) := by decide
  exact all n small

theorem digit_mem_digits (small : n < 16) : digit n ∈ digits :=
  List.mem_of_getElem? (getElem?_digits small)

theorem short_of_mem_digits (mem : c ∈ digits) : c.toNat < 0x80 := by
  have all : ∀ c ∈ digits, c.toNat < 0x80 := by simp [digits]
  exact all c mem

theorem toLower_of_mem_digits (mem : c ∈ digits) : c.toLower = c := by
  have all : ∀ c ∈ digits, c.toLower = c := by simp [digits]
  exact all c mem

theorem toLower_long (long : 0x80 ≤ c.toNat) : c.toLower = c := by
  have capital : ¬ (c.val ≥ 'A'.val ∧ c.val ≤ 'Z'.val) := by
    rintro ⟨-, below⟩
    have : c.toNat ≤ 'Z'.toNat := UInt32.le_iff_toNat_le.mp below
    have : 'Z'.toNat = 0x5A := rfl
    omega
  exact dif_neg capital

theorem short_of_isDigit (isDigit : IsDigit c) : c.toNat < 0x80 := by
  refine Nat.lt_of_not_le fun long => ?_
  rw [IsDigit, toLower_long long] at isDigit
  exact Nat.not_lt.mpr long (short_of_mem_digits isDigit)

theorem digitValue?_short (read : digitValue? c = some n) : c.toNat < 0x80 ∧ n < 16 := by
  have order : ∀ x y : Char, x ≤ y ↔ x.toNat ≤ y.toNat := fun _ _ => UInt32.le_iff_toNat_le
  have zero : '0'.toNat = 0x30 := rfl
  have nine : '9'.toNat = 0x39 := rfl
  have a : 'a'.toNat = 0x61 := rfl
  have f : 'f'.toNat = 0x66 := rfl
  have A : 'A'.toNat = 0x41 := rfl
  have F : 'F'.toNat = 0x46 := rfl
  unfold digitValue? at read
  simp only [order, zero, nine, a, f, A, F] at read
  split at read
  · cases read; omega
  split at read
  · cases read; omega
  split at read
  · cases read; omega
  · cases read

theorem digitValue?_ascii (short : c.toNat < 0x80) (small : n < 16) :
    digitValue? c = some n ↔ digits[n]? = some c.toLower := by
  have all : ∀ k < 0x80, ∀ n < 16, digitValue? (Char.ofNat k) = some n ↔
      digits[n]? = some (Char.ofNat k).toLower := by decide +kernel
  have same := all c.toNat short n small
  rwa [Char.ofNat_toNat] at same

/-- The value of a digit is the place of its small form. -/
theorem digitValue?_eq_some_iff : digitValue? c = some n ↔ digits[n]? = some c.toLower := by
  constructor
  · intro read
    obtain ⟨short, small⟩ := digitValue?_short read
    exact (digitValue?_ascii short small).mp read
  · intro placed
    have short := short_of_isDigit (List.mem_of_getElem? placed)
    obtain ⟨small, -⟩ := List.getElem?_eq_some_iff.mp placed
    exact (digitValue?_ascii short small).mpr placed

theorem digitValue?_eq_some_iff_digit : digitValue? c = some n ↔ n < 16 ∧ c.toLower = digit n := by
  rw [digitValue?_eq_some_iff]
  constructor
  · intro placed
    obtain ⟨small, -⟩ := List.getElem?_eq_some_iff.mp placed
    rw [getElem?_digits small, Option.some.injEq] at placed
    exact ⟨small, placed.symm⟩
  · rintro ⟨small, lowered⟩
    rw [getElem?_digits small, lowered]

theorem isDigit_iff : IsDigit c ↔ (digitValue? c).isSome := by
  rw [IsDigit, List.mem_iff_getElem?, Option.isSome_iff_exists]
  exact exists_congr fun n => digitValue?_eq_some_iff.symm

/-! ### Bytes as digits -/

theorem ofNat_eq_iff {upper lower : Nat} (upper_small : upper < 16) (lower_small : lower < 16) :
    UInt8.ofNat (16 * upper + lower) = b ↔ upper = b.toNat / 16 ∧ lower = b.toNat % 16 := by
  have whole : 16 * upper + lower < 256 := by omega
  rw [← UInt8.toNat_inj, UInt8.toNat_ofNat_of_lt' whole]
  omega

/-- The small form of the character that a byte is on its own. -/
def lowered (x : UInt8) : Char := (Char.ofNat x.toNat).toLower

theorem decodeDigits_cons {hi lo : UInt8} {rest : Bytes} :
    decodeDigits (hi :: lo :: rest) = some (b :: bytes) ↔
      [lowered hi, lowered lo] = byteDigits b ∧ decodeDigits rest = some bytes := by
  have below : b.toNat < 256 := b.toNat_lt
  have upper_small : b.toNat / 16 < 16 := by omega
  have lower_small : b.toNat % 16 < 16 := by omega
  rw [decodeDigits]
  simp only [byteDigits, lowered, Option.bind_eq_bind, Option.bind_eq_some_iff, Option.pure_def,
    Option.some.injEq, List.cons.injEq, digitValue?_eq_some_iff_digit]
  constructor
  · rintro ⟨h, ⟨h_small, first⟩, l, ⟨l_small, second⟩, _, others, byte, rfl⟩
    obtain ⟨rfl, rfl⟩ := (ofNat_eq_iff h_small l_small).mp byte
    exact ⟨⟨first, second, trivial⟩, others⟩
  · rintro ⟨⟨first, second, -⟩, others⟩
    exact ⟨_, ⟨upper_small, first⟩, _, ⟨lower_small, second⟩, _, others,
      (ofNat_eq_iff upper_small lower_small).mpr ⟨rfl, rfl⟩, rfl⟩

/-- What is read from digits is what their small forms are written for. -/
theorem decodeDigits_eq_some_iff :
    decodeDigits raw = some bytes ↔ raw.map lowered = bytes.flatMap byteDigits := by
  induction raw using decodeDigits.induct generalizing bytes with
  | case1 => cases bytes <;> simp [decodeDigits, byteDigits]
  | case2 x => cases bytes <;> simp [decodeDigits, byteDigits]
  | case3 hi lo rest ih =>
    cases bytes with
    | nil =>
      rw [decodeDigits]
      simp [Option.bind_eq_some_iff]
    | cons b bytes =>
      have pair : [lowered hi, lowered lo].length = (byteDigits b).length := rfl
      rw [decodeDigits_cons, ih, List.flatMap_cons, List.map_cons, List.map_cons]
      exact (List.append_eq_append_iff_of_size_eq_left pair).symm

theorem decodeDigits_isSome_iff :
    (decodeDigits raw).isSome ↔ raw.length % 2 = 0 ∧ ∀ x ∈ raw, IsDigit (Char.ofNat x.toNat) := by
  induction raw using decodeDigits.induct with
  | case1 => simp [decodeDigits]
  | case2 x => simp [decodeDigits]
  | case3 hi lo rest ih =>
    have length : (hi :: lo :: rest).length % 2 = rest.length % 2 := by
      rw [List.length_cons, List.length_cons]
      omega
    rw [length, List.forall_mem_cons, List.forall_mem_cons, isDigit_iff, isDigit_iff, decodeDigits]
    cases digitValue? (Char.ofNat hi.toNat) with
    | none => simp
    | some h =>
      cases digitValue? (Char.ofNat lo.toNat) with
      | none => simp
      | some l =>
        simp only [Option.isSome_some, true_and]
        rw [← ih]
        cases decodeDigits rest <;> rfl

/-! ### Texts -/

/-- A longer character is no digit, and none of its bytes is one. -/
theorem forall_isDigit_iff :
    (∀ x ∈ String.utf8EncodeChar c, IsDigit (Char.ofNat x.toNat)) ↔ IsDigit c := by
  by_cases short : c.toNat < 0x80
  · rw [Utf8.utf8EncodeChar_short short, List.forall_mem_singleton,
      UInt8.toNat_ofNat_of_lt' (Nat.lt_trans short (by decide)), Char.ofNat_toNat]
  · obtain ⟨x, tail, bytes, -⟩ := Utf8.part_utf8EncodeChar c []
    have mem : x ∈ String.utf8EncodeChar c := bytes ▸ List.mem_cons_self
    have long := Utf8.long_of_mem_utf8EncodeChar (Nat.le_of_not_lt short) mem
    have same : (Char.ofNat x.toNat).toNat = x.toNat := by
      rw [Char.ofNat, dif_pos (Or.inl (Nat.lt_trans x.toNat_lt (by decide)))]
      rfl
    constructor
    · intro all
      have := short_of_isDigit (all x mem)
      omega
    · intro isDigit
      exact absurd (short_of_isDigit isDigit) short

/-- Texts of an even number of bytes are read if all their characters are digits, and no others. -/
theorem decode?_isSome_iff : (decode? text).isSome ↔
    (Utf8.encode text).length % 2 = 0 ∧ ∀ c ∈ text.toList, IsDigit c := by
  rw [decode?, decodeDigits_isSome_iff]
  refine and_congr_right fun _ => ?_
  rw [Utf8.encode_eq, List.forall_mem_flatMap]
  exact forall₂_congr fun c _ => forall_isDigit_iff

example : decode? "é" = none := by decide +kernel

theorem toList_toLower : text.toLower.toList = text.toList.map Char.toLower :=
  String.toList_map

theorem map_lowered_encode (all : ∀ c ∈ text.toList, IsDigit c) :
    (Utf8.encode text).map lowered = text.toLower.toList := by
  have chars := Utf8.map_flatMap_short fun c mem => short_of_isDigit (all c mem)
  calc (Utf8.encode text).map lowered
      = ((Utf8.encode text).map fun x => Char.ofNat x.toNat).map Char.toLower := by
        rw [List.map_map]; rfl
    _ = text.toList.map Char.toLower := by rw [Utf8.encode_eq, chars]
    _ = text.toLower.toList := toList_toLower.symm

theorem toList_encode : (encode bytes).toList = bytes.flatMap byteDigits := String.toList_ofList

theorem mem_digits_of_mem_encode (mem : c ∈ (encode bytes).toList) : c ∈ digits := by
  rw [toList_encode, List.mem_flatMap] at mem
  obtain ⟨b, -, mem⟩ := mem
  have below : b.toNat < 256 := b.toNat_lt
  simp only [byteDigits, List.mem_cons, List.not_mem_nil, or_false] at mem
  obtain rfl | rfl := mem
  · exact digit_mem_digits (by omega)
  · exact digit_mem_digits (by omega)

theorem toLower_encode : (encode bytes).toLower = encode bytes := by
  rw [← String.toList_inj, toList_toLower]
  have same : ∀ c ∈ (encode bytes).toList, c.toLower = id c := fun c mem =>
    toLower_of_mem_digits (mem_digits_of_mem_encode mem)
  rw [List.map_congr_left same, List.map_id]

/-- The texts that are read as these bytes are those that differ from the written one in the kind
of their letters at most. -/
theorem decode?_eq_some_iff : decode? text = some bytes ↔ text.toLower = encode bytes := by
  have read_iff : decode? text = some bytes ↔
      (Utf8.encode text).map lowered = (encode bytes).toList := by
    rw [toList_encode]
    exact decodeDigits_eq_some_iff
  rw [read_iff, ← String.toList_inj]
  constructor
  · intro same
    have isSome := Option.isSome_of_eq_some (read_iff.mpr same)
    rw [← map_lowered_encode (decode?_isSome_iff.mp isSome).2, same]
  · intro same
    have all : ∀ c ∈ text.toList, IsDigit c := by
      intro c mem
      have written : c.toLower ∈ (encode bytes).toList := by
        rw [← same, toList_toLower]
        exact List.mem_map_of_mem mem
      exact mem_digits_of_mem_encode written
    rw [map_lowered_encode all, same]

theorem decode?_encode : decode? (encode bytes) = some bytes :=
  decode?_eq_some_iff.mpr toLower_encode

theorem getElem?_flatMap_byteDigits {i : Nat} (item : bytes[i]? = some b) :
    (bytes.flatMap byteDigits)[2 * i]? = some (digit (b.toNat / 16)) ∧
      (bytes.flatMap byteDigits)[2 * i + 1]? = some (digit (b.toNat % 16)) := by
  induction bytes generalizing i with
  | nil => simp at item
  | cons first rest ih =>
    cases i with
    | zero =>
      obtain rfl : first = b := by simpa using item
      exact ⟨rfl, rfl⟩
    | succ i => exact ih (by simpa using item)

theorem encode_written : Written bytes (encode bytes) where
  length := by
    have two : (bytes.map fun b => (byteDigits b).length).sum = (bytes.map fun _ => 2).sum := rfl
    rw [toList_encode, List.length_flatMap, two, List.map_const', List.sum_replicate_nat,
      Nat.mul_comm]
  upper i b item := by
    have below : b.toNat < 256 := b.toNat_lt
    rw [toList_encode, (getElem?_flatMap_byteDigits item).1, getElem?_digits (by omega)]
  lower i b item := by
    have below : b.toNat < 256 := b.toNat_lt
    rw [toList_encode, (getElem?_flatMap_byteDigits item).2, getElem?_digits (by omega)]

end CollatedStore.Hex
