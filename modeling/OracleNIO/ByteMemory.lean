import Mathlib.Data.List.Basic
import Mathlib.Data.List.Pairwise

/-!
Bytes in memory: UTF-8 text, its decoding with repair of malformed sequences,
C strings, and writes to disjoint places of one memory.
-/

namespace OracleNIO.ByteMemory

/-- The UTF-8 of the characters. -/
def encode (cs : List Char) : List UInt8 :=
  cs.flatMap String.utf8EncodeChar

@[simp] theorem encode_nil : encode [] = [] := rfl

/-- The UTF-8 of the text. -/
def utf8 (s : String) : List UInt8 :=
  encode s.toList

/-- The character at the front of the bytes, if they are well formed there. -/
def decodeScalar (bytes : List UInt8) : Option Char :=
  bytes.toByteArray.utf8DecodeChar? 0

/-- Length and range of the second byte of the sequences with a given lead byte. -/
def secondByte (lead : UInt8) : Option (Nat × UInt8 × UInt8) :=
  if 0xC2 ≤ lead ∧ lead ≤ 0xDF then some (2, 0x80, 0xBF)
  else if lead = 0xE0 then some (3, 0xA0, 0xBF)
  else if lead = 0xED then some (3, 0x80, 0x9F)
  else if 0xE1 ≤ lead ∧ lead ≤ 0xEF then some (3, 0x80, 0xBF)
  else if lead = 0xF0 then some (4, 0x90, 0xBF)
  else if 0xF1 ≤ lead ∧ lead ≤ 0xF3 then some (4, 0x80, 0xBF)
  else if lead = 0xF4 then some (4, 0x80, 0x8F)
  else none

/-- How many bytes one replacement character stands for: the longest start of a
well-formed sequence, and at least one byte. -/
def malformedLength : List UInt8 → Nat
  | lead :: second :: rest =>
      match secondByte lead with
      | none => 1
      | some (length, low, high) =>
          if second < low ∨ high < second then 1
          else
            match length, rest with
            | 4, third :: _ => if 0x80 ≤ third ∧ third ≤ 0xBF then 3 else 2
            | _, _ => 2
  | _ => 1

/-- Decoding with at most so many steps; an ill-formed byte is replaced by U+FFFD. -/
def decodeWithin : Nat → List UInt8 → List Char
  | 0, _ => []
  | _, [] => []
  | fuel + 1, byte :: bytes =>
      match decodeScalar (byte :: bytes) with
      | some c => c :: decodeWithin fuel ((byte :: bytes).drop c.utf8Size)
      | none => '\uFFFD' ::
          decodeWithin fuel ((byte :: bytes).drop (malformedLength (byte :: bytes)))

def decode (bytes : List UInt8) : List Char :=
  decodeWithin bytes.length bytes

theorem malformedLength_pos (bytes : List UInt8) : 0 < malformedLength bytes := by
  unfold malformedLength
  repeat' split
  all_goals decide

theorem decodeWithin_eq {fuel fuel' : Nat} {bytes : List UInt8}
    (hfuel : bytes.length ≤ fuel) (hfuel' : bytes.length ≤ fuel') :
    decodeWithin fuel bytes = decodeWithin fuel' bytes := by
  induction fuel generalizing fuel' bytes with
  | zero =>
      obtain rfl : bytes = [] := List.length_eq_zero_iff.mp (by omega)
      cases fuel' <;> rfl
  | succ fuel ih =>
      cases bytes with
      | nil => cases fuel' <;> rfl
      | cons byte bytes =>
          obtain ⟨fuel', rfl⟩ := Nat.exists_eq_succ_of_ne_zero
            (show fuel' ≠ 0 by simp only [List.length_cons] at hfuel'; omega)
          have hdrop : ∀ n, 0 < n → decodeWithin fuel ((byte :: bytes).drop n) =
              decodeWithin fuel' ((byte :: bytes).drop n) := by
            intro n hn
            simp only [List.length_cons] at hfuel hfuel'
            apply ih <;> simp only [List.length_drop, List.length_cons] <;> omega
          simp only [decodeWithin]
          split
          · rw [hdrop _ (Char.utf8Size_pos _)]
          · rw [hdrop _ (malformedLength_pos _)]

theorem decode_encodeChar_append (c : Char) (bytes : List UInt8) :
    decode (String.utf8EncodeChar c ++ bytes) = c :: decode bytes := by
  have hscalar : decodeScalar (String.utf8EncodeChar c ++ bytes) = some c := by
    rw [decodeScalar, List.toByteArray_append]
    exact ByteArray.utf8DecodeChar?_utf8EncodeChar_append
  have hlength := String.length_utf8EncodeChar c
  have hdrop : (String.utf8EncodeChar c ++ bytes).drop c.utf8Size = bytes := by
    rw [← hlength, List.drop_left]
  have hpos := Char.utf8Size_pos c
  obtain ⟨byte, tail, htail⟩ : ∃ byte tail,
      String.utf8EncodeChar c ++ bytes = byte :: tail := by
    cases h : String.utf8EncodeChar c with
    | nil => simp [h] at hlength; omega
    | cons byte tail => exact ⟨byte, tail ++ bytes, rfl⟩
  have hfuel : bytes.length ≤ tail.length := by
    have := congrArg List.length htail
    simp only [List.length_append, List.length_cons] at this
    omega
  rw [decode, htail, List.length_cons, decodeWithin]
  rw [htail] at hscalar hdrop
  simp only [hscalar, hdrop]
  rw [decode, decodeWithin_eq hfuel (Nat.le_refl _)]

theorem decode_encode_append (cs : List Char) (bytes : List UInt8) :
    decode (encode cs ++ bytes) = cs ++ decode bytes := by
  induction cs with
  | nil => rfl
  | cons c cs ih =>
      rw [encode, List.flatMap_cons, List.append_assoc, decode_encodeChar_append]
      exact congrArg (c :: ·) ih

@[simp] theorem decode_encode (cs : List Char) : decode (encode cs) = cs := by
  simpa [decode, decodeWithin] using decode_encode_append cs []

theorem decode_ne_nil {bytes : List UInt8} (hbytes : bytes ≠ []) : decode bytes ≠ [] := by
  cases bytes with
  | nil => exact absurd rfl hbytes
  | cons byte bytes =>
      simp only [decode, List.length_cons, decodeWithin]
      split <;> simp

/-- The bytes before the first zero byte, if there is a zero byte to be found. -/
def cString (bytes : List UInt8) : Option (List UInt8) :=
  if 0 ∈ bytes then some (bytes.takeWhile (· ≠ 0)) else none

theorem cString_append_zero {bytes rest : List UInt8} (hbytes : (0 : UInt8) ∉ bytes) :
    cString (bytes ++ 0 :: rest) = some bytes := by
  have htake : (bytes ++ 0 :: rest).takeWhile (· ≠ 0) = bytes := by
    rw [List.takeWhile_append_of_pos]
    · simp
    · intro b hb
      simpa using fun h : b = 0 => hbytes (h ▸ hb)
  rw [cString, if_pos (by simp), htake]

theorem cString_append {bytes rest : List UInt8} (hbytes : (0 : UInt8) ∉ bytes) :
    cString (bytes ++ rest) = (cString rest).map (bytes ++ ·) := by
  have htake : (bytes ++ rest).takeWhile (· ≠ 0) = bytes ++ rest.takeWhile (· ≠ 0) := by
    rw [List.takeWhile_append_of_pos]
    intro b hb
    simpa using fun h : b = 0 => hbytes (h ▸ hb)
  by_cases hrest : (0 : UInt8) ∈ rest
  · rw [cString, if_pos (List.mem_append_right bytes hrest), cString, if_pos hrest, htake]
    rfl
  · simp [cString, hbytes, hrest]

theorem ofNat_ne_zero {n : Nat} (h : n % 256 ≠ 0) : (0 : UInt8) ≠ UInt8.ofNat n := by
  intro h0
  have hnat := congrArg UInt8.toNat h0
  simp only [UInt8.toNat_ofNat', UInt8.toNat_zero] at hnat
  omega

theorem zero_notMem_encodeChar {c : Char} (hc : c ≠ '\x00') :
    (0 : UInt8) ∉ String.utf8EncodeChar c := by
  have hval : c.val.toNat ≠ 0 := by
    intro h
    exact hc (Char.ext (UInt32.toNat_inj.mp h))
  unfold String.utf8EncodeChar
  generalize c.val.toNat = v at hval
  simp only
  split
  · simp only [List.mem_singleton]
    exact ofNat_ne_zero (by omega)
  split
  · simp only [List.mem_cons, List.not_mem_nil, or_false, not_or]
    exact ⟨ofNat_ne_zero (by omega), ofNat_ne_zero (by omega)⟩
  split
  · simp only [List.mem_cons, List.not_mem_nil, or_false, not_or]
    exact ⟨ofNat_ne_zero (by omega), ofNat_ne_zero (by omega), ofNat_ne_zero (by omega)⟩
  · simp only [List.mem_cons, List.not_mem_nil, or_false, not_or]
    exact ⟨ofNat_ne_zero (by omega), ofNat_ne_zero (by omega), ofNat_ne_zero (by omega),
      ofNat_ne_zero (by omega)⟩

theorem decode_cString_ne {cs : List Char} (h : (0 : UInt8) ∈ encode cs)
    {rest bytes : List UInt8} (hbytes : cString (encode cs ++ rest) = some bytes) :
    decode bytes ≠ cs := by
  induction cs generalizing bytes with
  | nil => simp at h
  | cons c cs ih =>
      change cString (String.utf8EncodeChar c ++ encode cs ++ rest) = some bytes at hbytes
      rw [List.append_assoc] at hbytes
      by_cases hc : c = '\x00'
      · subst hc
        have hempty : cString ([] ++ 0 :: (encode cs ++ rest)) = some [] :=
          cString_append_zero (by simp)
        obtain rfl : [] = bytes := Option.some.inj (hempty.symm.trans hbytes)
        simp [decode, decodeWithin]
      · have hzero := zero_notMem_encodeChar hc
        rw [cString_append hzero, Option.map_eq_some_iff] at hbytes
        rcases hbytes with ⟨tail, htail, rfl⟩
        rw [decode_encodeChar_append]
        have hmem : (0 : UInt8) ∈ encode cs := by
          rcases List.mem_append.mp
            (show (0 : UInt8) ∈ String.utf8EncodeChar c ++ encode cs from h) with h | h
          · exact absurd h hzero
          · exact h
        intro heq
        exact ih hmem htail (List.cons.inj heq).2

/-- A text is read back as a C string exactly if a zero byte follows it at once and none
is in it. -/
theorem decode_cString_iff (cs : List Char) (rest : List UInt8) :
    (∃ bytes, cString (encode cs ++ rest) = some bytes ∧ decode bytes = cs) ↔
      (0 : UInt8) ∉ encode cs ∧ rest.head? = some 0 := by
  constructor
  · rintro ⟨bytes, hbytes, hdecode⟩
    have hzero : (0 : UInt8) ∉ encode cs := by
      intro h
      exact decode_cString_ne h hbytes hdecode
    refine ⟨hzero, ?_⟩
    rw [cString_append hzero, Option.map_eq_some_iff] at hbytes
    rcases hbytes with ⟨tail, htail, rfl⟩
    rw [decode_encode_append, List.append_right_eq_self] at hdecode
    obtain rfl : tail = [] := by
      by_contra htail
      exact decode_ne_nil htail hdecode
    cases rest with
    | nil => simp [cString] at htail
    | cons byte rest =>
        by_contra hbyte
        have hne : byte ≠ 0 := by
          rintro rfl
          exact hbyte rfl
        simp only [cString] at htail
        split at htail
        · simp [hne] at htail
        · cases htail
  · rintro ⟨hzero, hhead⟩
    obtain ⟨rest, rfl⟩ := List.head?_eq_some_iff.mp hhead
    exact ⟨_, cString_append_zero hzero, decode_encode cs⟩

/-- The memory after a copy of the bytes to the address. -/
def writeBytes (memory : List UInt8) (addr : Nat) (bytes : List UInt8) : List UInt8 :=
  memory.take addr ++ (bytes ++ memory.drop (addr + bytes.length))

def readBytes (memory : List UInt8) (addr length : Nat) : List UInt8 :=
  (memory.drop addr).take length

theorem length_write {memory : List UInt8} {addr : Nat} {bytes : List UInt8}
    (h : addr + bytes.length ≤ memory.length) :
    (writeBytes memory addr bytes).length = memory.length := by
  simp only [writeBytes, List.length_append, List.length_take, List.length_drop]
  omega

theorem read_write_same {memory : List UInt8} {addr : Nat} {bytes : List UInt8}
    (h : addr + bytes.length ≤ memory.length) :
    readBytes (writeBytes memory addr bytes) addr bytes.length = bytes := by
  have hlength : (memory.take addr).length = addr := by
    simp only [List.length_take]; omega
  simp only [readBytes, writeBytes]
  rw [List.drop_left' hlength, List.take_left' rfl]

theorem getElem?_write {memory : List UInt8} {addr : Nat} {bytes : List UInt8}
    (h : addr + bytes.length ≤ memory.length) {i : Nat}
    (hi : i < addr ∨ addr + bytes.length ≤ i) :
    (writeBytes memory addr bytes)[i]? = memory[i]? := by
  have hlength : (memory.take addr).length = addr := by
    simp only [List.length_take]; omega
  rcases hi with hi | hi
  · rw [writeBytes, List.getElem?_append_left (by omega), List.getElem?_take_of_lt hi]
  · rw [writeBytes, List.getElem?_append_right (by omega), hlength,
      List.getElem?_append_right (by omega), List.getElem?_drop]
    congr 1
    omega

theorem read_congr {memory memory' : List UInt8} {addr length : Nat}
    (h : ∀ i, addr ≤ i → i < addr + length → memory[i]? = memory'[i]?) :
    readBytes memory addr length = readBytes memory' addr length := by
  apply List.ext_getElem?
  intro i
  by_cases hi : i < length
  · simp only [readBytes, List.getElem?_take_of_lt hi, List.getElem?_drop]
    exact h (addr + i) (by omega) (by omega)
  · rw [List.getElem?_eq_none, List.getElem?_eq_none] <;>
      simp only [readBytes, List.length_take] <;> omega

theorem drop_of_read {memory bytes : List UInt8} {addr : Nat}
    (hroom : addr + bytes.length ≤ memory.length)
    (hread : readBytes memory addr bytes.length = bytes) (rest : List UInt8) :
    (memory ++ rest).drop addr = bytes ++ (memory ++ rest).drop (addr + bytes.length) := by
  have htake : ((memory ++ rest).drop addr).take bytes.length = bytes := by
    rw [List.drop_append_of_le_length (by omega), List.take_append_of_le_length]
    · exact hread
    · rw [List.length_drop]
      omega
  calc (memory ++ rest).drop addr
      = ((memory ++ rest).drop addr).take bytes.length ++
          ((memory ++ rest).drop addr).drop bytes.length := (List.take_append_drop _ _).symm
    _ = bytes ++ (memory ++ rest).drop (addr + bytes.length) := by rw [htake, List.drop_drop]

end OracleNIO.ByteMemory
