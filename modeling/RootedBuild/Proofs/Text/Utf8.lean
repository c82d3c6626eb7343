import Mathlib.Data.List.Basic
import RootedBuild.Text.Utf8

/-!
What is encoded is decoded again, for every text. An encoded text has the byte of a line break where
the text has a line break, and nowhere else.
-/
namespace RootedBuild.Text

theorem toList_loop (bytes : ByteArray) (i : Nat) (seen : List UInt8) :
    ByteArray.toList.loop bytes i seen = seen.reverse ++ bytes.data.toList.drop i := by
  induction i, seen using ByteArray.toList.loop.induct bytes with
  | case1 i seen inside ih =>
      have length : i < bytes.data.toList.length := inside
      rw [ByteArray.toList.loop, if_pos inside, ih, List.drop_eq_getElem_cons length]
      simp [ByteArray.get!, inside]
  | case2 i seen outside =>
      have length : bytes.data.toList.length ≤ i := Nat.le_of_not_lt outside
      rw [ByteArray.toList.loop, if_neg outside, List.drop_eq_nil_of_le length, List.append_nil]

theorem encodeUtf8_eq (text : String) :
    encodeUtf8 text = text.toList.flatMap String.utf8EncodeChar := by
  have spelled : text.toUTF8 = text.toList.utf8Encode := by
    rw [String.toUTF8_eq_toByteArray, ← String.toByteArray_ofList, String.ofList_toList]
  rw [encodeUtf8, spelled, ByteArray.toList, toList_loop]
  simp [List.utf8Encode]

theorem encodeUtf8_append (s t : String) : encodeUtf8 (s ++ t) = encodeUtf8 s ++ encodeUtf8 t := by
  rw [encodeUtf8_eq, encodeUtf8_eq, encodeUtf8_eq, String.toList_append, List.flatMap_append]

/-! ### One character -/

theorem toNat_byte {n : Nat} (small : n < 256) : (UInt8.ofNat n).toNat = n :=
  UInt8.toNat_ofNat_of_lt' small

theorem isContinuation_iff {b : UInt8} :
    isContinuation b = true ↔ 0x80 ≤ b.toNat ∧ b.toNat ≤ 0xBF := by
  simp [isContinuation, UInt8.le_iff_toNat_le]

section
variable {a b c d : UInt8} (index : Nat) (seen : List Char) (rest : List UInt8)

theorem decodeFrom_one (first : a.toNat < 0x80) :
    decodeFrom index seen (a :: rest) =
      decodeFrom (index + 1) (Char.ofNat a.toNat :: seen) rest := by
  rw [decodeFrom.eq_def]
  simp [UInt8.lt_iff_toNat_lt, first]

theorem decodeFrom_two (first : 0xC2 ≤ a.toNat ∧ a.toNat < 0xE0)
    (second : 0x80 ≤ b.toNat ∧ b.toNat ≤ 0xBF) :
    decodeFrom index seen (a :: b :: rest) =
      decodeFrom (index + 2) (Char.ofNat (a.toNat % 32 * 64 + lowBits b) :: seen) rest := by
  have notOne : ¬a < 0x80 := by rw [UInt8.lt_iff_toNat_lt]; simp; omega
  have notLate : ¬a < 0xC2 := by rw [UInt8.lt_iff_toNat_lt]; simp; omega
  have early : a < 0xE0 := by rw [UInt8.lt_iff_toNat_lt]; exact first.2
  rw [decodeFrom.eq_def]
  simp [notOne, notLate, early, isContinuation_iff.mpr second]

theorem secondByteFits_of (second : 0x80 ≤ b.toNat ∧ b.toNat ≤ 0xBF)
    (overlong : a.toNat = 0xE0 → 0xA0 ≤ b.toNat) (surrogate : a.toNat = 0xED → b.toNat ≤ 0x9F)
    (overlong' : a.toNat = 0xF0 → 0x90 ≤ b.toNat) (above : a.toNat = 0xF4 → b.toNat ≤ 0x8F) :
    secondByteFits a b = true := by
  simp only [secondByteFits, beq_iff_eq, ← UInt8.toNat_inj]
  split
  · rename_i lead
    simpa [UInt8.le_iff_toNat_le] using ⟨overlong lead, second.2⟩
  · split
    · rename_i lead
      simpa [UInt8.le_iff_toNat_le] using ⟨second.1, surrogate lead⟩
    · split
      · rename_i lead
        simpa [UInt8.le_iff_toNat_le] using ⟨overlong' lead, second.2⟩
      · split
        · rename_i lead
          simpa [UInt8.le_iff_toNat_le] using ⟨second.1, above lead⟩
        · exact isContinuation_iff.mpr second

theorem decodeFrom_three (first : 0xE0 ≤ a.toNat ∧ a.toNat < 0xF0)
    (second : secondByteFits a b = true) (third : 0x80 ≤ c.toNat ∧ c.toNat ≤ 0xBF) :
    decodeFrom index seen (a :: b :: c :: rest) =
      decodeFrom (index + 3)
        (Char.ofNat ((a.toNat % 16 * 64 + lowBits b) * 64 + lowBits c) :: seen) rest := by
  have notOne : ¬a < 0x80 := by rw [UInt8.lt_iff_toNat_lt]; simp; omega
  have notLate : ¬a < 0xC2 := by rw [UInt8.lt_iff_toNat_lt]; simp; omega
  have notTwo : ¬a < 0xE0 := by rw [UInt8.lt_iff_toNat_lt]; simp; omega
  have early : a < 0xF0 := by rw [UInt8.lt_iff_toNat_lt]; exact first.2
  rw [decodeFrom.eq_def]
  simp [notOne, notLate, notTwo, early, second, isContinuation_iff.mpr third]

theorem decodeFrom_four (first : 0xF0 ≤ a.toNat ∧ a.toNat < 0xF5)
    (second : secondByteFits a b = true) (third : 0x80 ≤ c.toNat ∧ c.toNat ≤ 0xBF)
    (fourth : 0x80 ≤ d.toNat ∧ d.toNat ≤ 0xBF) :
    decodeFrom index seen (a :: b :: c :: d :: rest) =
      decodeFrom (index + 4)
        (Char.ofNat (((a.toNat % 8 * 64 + lowBits b) * 64 + lowBits c) * 64 + lowBits d) :: seen)
        rest := by
  have notOne : ¬a < 0x80 := by rw [UInt8.lt_iff_toNat_lt]; simp; omega
  have notLate : ¬a < 0xC2 := by rw [UInt8.lt_iff_toNat_lt]; simp; omega
  have notTwo : ¬a < 0xE0 := by rw [UInt8.lt_iff_toNat_lt]; simp; omega
  have notThree : ¬a < 0xF0 := by rw [UInt8.lt_iff_toNat_lt]; simp; omega
  have early : a < 0xF5 := by rw [UInt8.lt_iff_toNat_lt]; exact first.2
  rw [decodeFrom.eq_def]
  simp [notOne, notLate, notTwo, notThree, early, second, isContinuation_iff.mpr third,
    isContinuation_iff.mpr fourth]

end

/-- An encoded character is decoded, whatever follows it. -/
theorem decodeFrom_char (c : Char) (index : Nat) (seen : List Char) (rest : List UInt8) :
    ∃ index', decodeFrom index seen (String.utf8EncodeChar c ++ rest) =
      decodeFrom index' (c :: seen) rest := by
  have valid : c.val.toNat < 0xD800 ∨ 0xDFFF < c.val.toNat ∧ c.val.toNat < 0x110000 := c.valid
  have whole : Char.ofNat c.val.toNat = c := Char.ofNat_toNat c
  unfold String.utf8EncodeChar
  generalize c.val.toNat = v at valid whole
  dsimp only
  split
  · have a := toNat_byte (n := v) (by omega)
    refine ⟨index + 1, ?_⟩
    rw [List.singleton_append, decodeFrom_one index seen rest (by omega), a, whole]
  · split
    · have a := toNat_byte (n := v / 64 % 32 + 192) (by omega)
      have b := toNat_byte (n := v % 64 + 128) (by omega)
      refine ⟨index + 2, ?_⟩
      rw [List.cons_append, List.singleton_append,
        decodeFrom_two index seen rest (by omega) (by omega)]
      have code : (UInt8.ofNat (v / 64 % 32 + 192)).toNat % 32 * 64 +
          lowBits (UInt8.ofNat (v % 64 + 128)) = v := by
        rw [lowBits, a, b]
        omega
      rw [code, whole]
    · split
      · have a := toNat_byte (n := v / 4096 % 16 + 224) (by omega)
        have b := toNat_byte (n := v / 64 % 64 + 128) (by omega)
        have d := toNat_byte (n := v % 64 + 128) (by omega)
        refine ⟨index + 3, ?_⟩
        rw [List.cons_append, List.cons_append, List.singleton_append,
          decodeFrom_three index seen rest (by omega)
            (secondByteFits_of (by omega) (by omega) (by omega) (by omega) (by omega)) (by omega)]
        have code : ((UInt8.ofNat (v / 4096 % 16 + 224)).toNat % 16 * 64 +
            lowBits (UInt8.ofNat (v / 64 % 64 + 128))) * 64 +
              lowBits (UInt8.ofNat (v % 64 + 128)) = v := by
          rw [lowBits, lowBits, a, b, d]
          omega
        rw [code, whole]
      · have a := toNat_byte (n := v / 262144 % 8 + 240) (by omega)
        have b := toNat_byte (n := v / 4096 % 64 + 128) (by omega)
        have d := toNat_byte (n := v / 64 % 64 + 128) (by omega)
        have e := toNat_byte (n := v % 64 + 128) (by omega)
        refine ⟨index + 4, ?_⟩
        rw [List.cons_append, List.cons_append, List.cons_append, List.singleton_append,
          decodeFrom_four index seen rest (by omega)
            (secondByteFits_of (by omega) (by omega) (by omega) (by omega) (by omega)) (by omega)
            (by omega)]
        have code : (((UInt8.ofNat (v / 262144 % 8 + 240)).toNat % 8 * 64 +
            lowBits (UInt8.ofNat (v / 4096 % 64 + 128))) * 64 +
              lowBits (UInt8.ofNat (v / 64 % 64 + 128))) * 64 +
                lowBits (UInt8.ofNat (v % 64 + 128)) = v := by
          rw [lowBits, lowBits, lowBits, a, b, d, e]
          omega
        rw [code, whole]

/-! ### Texts -/

theorem decodeFrom_chars (cs seen : List Char) (index : Nat) :
    decodeFrom index seen (cs.flatMap String.utf8EncodeChar) = .ok (seen.reverse ++ cs) := by
  induction cs generalizing seen index with
  | nil => rw [List.append_nil]; rfl
  | cons c cs ih =>
      obtain ⟨next, decoded⟩ := decodeFrom_char c index seen (cs.flatMap String.utf8EncodeChar)
      rw [List.flatMap_cons, decoded, ih]
      simp

theorem decodeUtf8_encodeUtf8 (text : String) : decodeUtf8 (encodeUtf8 text) = .ok text := by
  rw [decodeUtf8, encodeUtf8_eq, decodeFrom_chars]
  exact congrArg Except.ok (String.ofList_toList)

theorem decodeUtf8_ascii {bytes : List UInt8} (small : ∀ b ∈ bytes, b.toNat < 0x80) :
    decodeUtf8 bytes = .ok (String.ofList (bytes.map fun b => Char.ofNat b.toNat)) := by
  have decoded (seen : List Char) (index : Nat) : decodeFrom index seen bytes =
      .ok (seen.reverse ++ bytes.map fun b => Char.ofNat b.toNat) := by
    induction bytes generalizing seen index with
    | nil => rw [List.map_nil, List.append_nil]; rfl
    | cons b bytes ih =>
        obtain ⟨first, later⟩ := List.forall_mem_cons.mp small
        rw [decodeFrom_one index seen bytes first, ih later]
        simp
  rw [decodeUtf8, decoded]
  rfl

/-- Below 128 a byte of an encoded character is the character. -/
theorem mem_utf8EncodeChar {c : Char} {b : UInt8} (member : b ∈ String.utf8EncodeChar c)
    (small : b.toNat < 0x80) : c.toNat = b.toNat := by
  unfold String.utf8EncodeChar at member
  change c.val.toNat = b.toNat
  generalize c.val.toNat = v at member
  dsimp only at member
  split at member
  · rw [List.mem_singleton.mp member]
    exact (toNat_byte (by omega)).symm
  · -- all bytes of longer encodings have their top bit set
    have top {n : Nat} (set : 0x80 ≤ n ∧ n < 256) (same : b = UInt8.ofNat n) : False := by
      rw [same, toNat_byte set.2] at small
      omega
    exfalso
    split at member
    · rcases List.mem_pair.mp member with same | same
      · exact top (by omega) same
      · exact top (by omega) same
    · split at member <;> simp only [List.mem_cons, List.not_mem_nil, or_false] at member
      · rcases member with same | same | same
        · exact top (by omega) same
        · exact top (by omega) same
        · exact top (by omega) same
      · rcases member with same | same | same | same
        · exact top (by omega) same
        · exact top (by omega) same
        · exact top (by omega) same
        · exact top (by omega) same

theorem break_notMem_encodeUtf8 {text : String} (unbroken : '\n' ∉ text.toList) :
    10 ∉ encodeUtf8 text := by
  rw [encodeUtf8_eq]
  intro member
  obtain ⟨c, inside, byte⟩ := List.mem_flatMap.mp member
  have code := mem_utf8EncodeChar byte (by decide)
  have same : c = '\n' := Char.toNat_inj.mp code
  exact unbroken (same ▸ inside)

end RootedBuild.Text
