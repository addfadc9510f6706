import Abacus.Text.Utf8

/-! # Encoded texts

Bytes are read without a fault exactly if they encode a text, and then they are read as the
characters of that text. The bytes of texts are in the order of the texts. -/

namespace Abacus.Text.Utf8

/-- The bytes that encode a text. -/
def encode (text : String) : List UInt8 := text.toUTF8.data.toList

theorem encode_ofList (chars : List Char) :
    encode (String.ofList chars) = chars.flatMap String.utf8EncodeChar := by
  rw [encode, String.toUTF8_eq_toByteArray, String.toByteArray_ofList, List.utf8Encode,
    List.data_toByteArray]

/-! ## One character -/

/-- The bits of a number that are left for the first byte. -/
def leading : Nat → Nat → Nat
  | 0, number => number
  | count + 1, number => leading count number / 64

/-- The bytes behind the first one: they hold the lower bits of a number, six each. -/
def trailing : Nat → Nat → List UInt8
  | 0, _ => []
  | count + 1, number => UInt8.ofNat (leading count number % 64 + 128) :: trailing count number

theorem eq_ofNat_iff {byte : UInt8} {number : Nat} (small : number < 256) :
    byte = UInt8.ofNat number ↔ byte.toNat = number := by
  rw [← UInt8.toNat_inj, UInt8.toNat_ofNat', Nat.mod_eq_of_lt small]

theorem follow_eq_ok_iff (count start number : Nat) (bytes rest : List UInt8) :
    follow count start bytes = (.ok number, rest) ↔
      start = leading count number ∧ bytes = trailing count number ++ rest := by
  induction count generalizing start bytes with
  | zero => simp [follow, leading, trailing]
  | succ count induction =>
      cases bytes with
      | nil => simp [follow, trailing]
      | cons byte bytes =>
          rw [follow, leading, trailing, List.cons_append, List.cons.injEq,
            eq_ofNat_iff (by omega)]
          split
          · next continues =>
              simp only [isContinuation, Bool.and_eq_true, decide_eq_true_eq] at continues
              rw [induction, ← and_assoc]
              refine and_congr_left fun _ => ?_
              -- The byte holds the lowest six of the bits so far, and the start those above.
              omega
          · next breaks =>
              simp only [isContinuation, Bool.and_eq_true, decide_eq_true_eq] at breaks
              simp only [Prod.mk.injEq, reduceCtorEq, false_and, false_iff]
              omega

theorem toNat_ofNat {number : Nat} (valid : number.isValidChar) :
    (Char.ofNat number).toNat = number := by
  rw [Char.ofNat, dif_pos valid]
  rfl

theorem character_eq_char_iff (least number : Nat) (char : Char) :
    character least number = .char char ↔ number = char.toNat ∧ least ≤ number := by
  unfold character
  split
  · next fits =>
      rw [Event.char.injEq, and_iff_left fits.2]
      constructor
      · rintro rfl
        exact (toNat_ofNat fits.1).symm
      · rintro rfl
        exact char.ofNat_toNat
  · next unfit =>
      simp only [reduceCtorEq, false_iff]
      rintro ⟨rfl, enough⟩
      exact unfit ⟨char.valid, enough⟩

theorem decodeOne_eq_char_iff_lead (first : UInt8) (bytes rest : List UInt8) (char : Char) :
    decodeOne first bytes = (.char char, rest) ↔
      ∃ lead, (lead? first = some lead ∧ lead.least ≤ char.toNat ∧
          lead.bits = leading lead.following char.toNat) ∧
        bytes = trailing lead.following char.toNat ++ rest := by
  unfold decodeOne
  cases lead? first with
  | none => simp
  | some lead =>
      simp only [Option.some.injEq, and_assoc, exists_eq_left', ← follow_eq_ok_iff]
      rcases follow lead.following lead.bits bytes with ⟨fault | number, behind⟩
      · simp
      · simp only [Prod.mk.injEq, character_eq_char_iff, Except.ok.injEq]
        constructor
        · rintro ⟨⟨rfl, enough⟩, rfl⟩
          exact ⟨enough, rfl, rfl⟩
        · rintro ⟨enough, rfl, rfl⟩
          exact ⟨⟨rfl, enough⟩, rfl⟩

/-- What the first byte of a number in its shortest sequence says. -/
def Lead.ofNumber (number : Nat) : Lead :=
  if number < 0x80 then ⟨0, number, 0⟩
  else if number < 0x800 then ⟨1, leading 1 number, 0x80⟩
  else if number < 0x10000 then ⟨2, leading 2 number, 0x800⟩
  else ⟨3, leading 3 number, 0x10000⟩

/-- The bits that tell how long a sequence is. -/
def Lead.mark (lead : Lead) : Nat :=
  match lead.following with
  | 0 => 0
  | 1 => 0xC0
  | 2 => 0xE0
  | _ => 0xF0

theorem toNat_lt (char : Char) : char.toNat < 0x110000 := by
  rcases char.valid with low | ⟨_, high⟩
  · exact Nat.lt_trans low (by decide)
  · exact high

theorem utf8EncodeChar_eq (char : Char) :
    String.utf8EncodeChar char =
      UInt8.ofNat ((Lead.ofNumber char.toNat).bits + (Lead.ofNumber char.toNat).mark) ::
        trailing (Lead.ofNumber char.toNat).following char.toNat := by
  -- No number is so large that its first byte would not hold the bits left over.
  have valid := toNat_lt char
  have zero : leading 0 char.toNat = char.toNat := rfl
  have one : leading 1 char.toNat = char.toNat / 64 := rfl
  have two : leading 2 char.toNat = char.toNat / 4096 := Nat.div_div_eq_div_mul _ 64 64
  have three : leading 3 char.toNat = char.toNat / 262144 := by
    rw [leading, two, Nat.div_div_eq_div_mul]
  unfold String.utf8EncodeChar Lead.ofNumber
  simp only [Char.toNat_val]
  grind [trailing, Lead.mark]

/-- The first byte of a sequence in its shortest form is known from the number alone. -/
theorem lead?_eq_some_iff {number : Nat} (valid : number < 0x110000) (first : UInt8) (lead : Lead) :
    lead? first = some lead ∧ lead.least ≤ number ∧ lead.bits = leading lead.following number ↔
      lead = .ofNumber number ∧ first = UInt8.ofNat (lead.bits + lead.mark) := by
  constructor
  · rintro ⟨read, enough, bits⟩
    have byte : lead = .ofNumber number ∧ first.toNat = lead.bits + lead.mark := by
      unfold lead? at read
      grind [leading, Lead.ofNumber, Lead.mark]
    rw [← byte.2, UInt8.ofNat_toNat]
    exact ⟨byte.1, rfl⟩
  · rintro ⟨rfl, equal⟩
    rw [eq_ofNat_iff (by grind [leading, Lead.ofNumber, Lead.mark])] at equal
    unfold lead?
    grind [leading, Lead.ofNumber, Lead.mark]

theorem decodeOne_eq_char_iff (first : UInt8) (bytes rest : List UInt8) (char : Char) :
    decodeOne first bytes = (.char char, rest) ↔
      first :: bytes = String.utf8EncodeChar char ++ rest := by
  rw [decodeOne_eq_char_iff_lead, utf8EncodeChar_eq, List.cons_append, List.cons.injEq]
  simp only [lead?_eq_some_iff (toNat_lt char), and_assoc, exists_eq_left]

/-! ## All characters -/

theorem decode_nil : decode [] = [] := by
  rw [decode]

theorem decode_cons (first : UInt8) (rest : List UInt8) :
    decode (first :: rest) = (decodeOne first rest).1 :: decode (decodeOne first rest).2 := by
  rw [decode]

theorem decode_eq_map_char_iff (bytes : List UInt8) (chars : List Char) :
    decode bytes = chars.map Event.char ↔ bytes = encode (String.ofList chars) := by
  rw [encode_ofList]
  induction chars generalizing bytes with
  | nil =>
      cases bytes with
      | nil => simp [decode_nil]
      | cons first rest => simp [decode_cons]
  | cons char chars induction =>
      rw [List.map_cons, List.flatMap_cons]
      cases bytes with
      | nil => simp [decode_nil, utf8EncodeChar_eq]
      | cons first rest =>
          rw [decode_cons, List.cons.injEq, induction, ← decodeOne_eq_char_iff, Prod.ext_iff]

theorem decode_encode (text : String) : decode (encode text) = text.toList.map Event.char := by
  rw [decode_eq_map_char_iff, String.ofList_toList]

theorem exists_fault_or_eq_map_char (events : List Event) :
    (∃ fault, Event.fault fault ∈ events) ∨ ∃ chars : List Char, events = chars.map .char := by
  induction events with
  | nil => exact .inr ⟨[], rfl⟩
  | cons event events induction =>
      match event with
      | .fault fault => exact .inl ⟨fault, List.mem_cons_self⟩
      | .char char =>
          rcases induction with ⟨fault, member⟩ | ⟨chars, rfl⟩
          · exact .inl ⟨fault, List.mem_cons_of_mem _ member⟩
          · exact .inr ⟨char :: chars, rfl⟩

/-- Bytes that encode no text are read with a fault. -/
theorem exists_fault_of_forall_ne {bytes : List UInt8} (unencoded : ∀ text, bytes ≠ encode text) :
    ∃ fault, Event.fault fault ∈ decode bytes := by
  rcases exists_fault_or_eq_map_char (decode bytes) with found | ⟨chars, equal⟩
  · exact found
  · exact absurd ((decode_eq_map_char_iff bytes chars).mp equal) (unencoded _)

theorem text?_encode (text : String) : text? (encode text) = some text := by
  simp [text?, decode_encode, List.filterMap_map, Function.comp_def, Event.fault?, Event.char?]

/-! ## Newlines -/

theorem toNat_of_mem_trailing {count number : Nat} {byte : UInt8}
    (member : byte ∈ trailing count number) : 0x80 ≤ byte.toNat := by
  induction count with
  | zero => contradiction
  | succ count induction =>
      rcases List.mem_cons.mp member with first | further
      · rw [(eq_ofNat_iff (by omega)).mp first]
        omega
      · exact induction further

/-- The byte of a newline stands for nothing else. -/
theorem newline_notMem_utf8EncodeChar {char : Char} (other : char ≠ '\n') :
    10 ∉ String.utf8EncodeChar char := by
  have different : char.toNat ≠ 10 := fun same => other (Char.toNat_inj.mp same)
  rw [utf8EncodeChar_eq, List.mem_cons, not_or]
  constructor
  · rw [eq_ofNat_iff (by grind [leading, Lead.ofNumber, Lead.mark, toNat_lt])]
    change 10 ≠ _
    grind [Lead.ofNumber, Lead.mark]
  · intro member
    have high := toNat_of_mem_trailing member
    contradiction

/-! ## Order -/

theorem leading_le_leading {first second : Nat} (le : first ≤ second) (count : Nat) :
    leading count first ≤ leading count second := by
  induction count with
  | zero => exact le
  | succ count induction => exact Nat.div_le_div_right induction

/-- Behind equal first bytes the smaller number has the smaller bytes, whatever follows them. -/
theorem trailing_append_lt {count first second : Nat}
    (same : leading count first = leading count second) (less : first < second)
    (front back : List UInt8) :
    trailing count first ++ front < trailing count second ++ back := by
  induction count with
  | zero => exact absurd same (Nat.ne_of_lt less)
  | succ count induction =>
      rw [trailing, trailing, List.cons_append, List.cons_append, List.cons_lt_cons_iff]
      by_cases further : leading count first = leading count second
      · exact .inr ⟨by rw [further], induction further⟩
      · left
        have le := leading_le_leading (Nat.le_of_lt less) count
        rw [leading, leading] at same
        rw [UInt8.lt_iff_toNat_lt, UInt8.toNat_ofNat', UInt8.toNat_ofNat']
        omega

/-- The smaller number has the smaller first byte, or the same one and then as many bytes. -/
theorem lead_lt_or_eq {first second : Nat} (less : first < second) :
    (Lead.ofNumber first).bits + (Lead.ofNumber first).mark <
        (Lead.ofNumber second).bits + (Lead.ofNumber second).mark ∨
      (Lead.ofNumber first).bits + (Lead.ofNumber first).mark =
        (Lead.ofNumber second).bits + (Lead.ofNumber second).mark ∧
      (Lead.ofNumber first).following = (Lead.ofNumber second).following ∧
      leading (Lead.ofNumber second).following first =
        leading (Lead.ofNumber second).following second := by
  grind [Lead.ofNumber, Lead.mark, leading]

theorem utf8EncodeChar_append_lt {first second : Char} (less : first < second)
    (front back : List UInt8) :
    String.utf8EncodeChar first ++ front < String.utf8EncodeChar second ++ back := by
  have smaller : first.toNat < second.toNat := less
  have valid := toNat_lt second
  rw [utf8EncodeChar_eq, utf8EncodeChar_eq, List.cons_append, List.cons_append,
    List.cons_lt_cons_iff]
  rcases lead_lt_or_eq smaller with byte | ⟨byte, following, bits⟩
  · left
    rw [UInt8.lt_iff_toNat_lt, UInt8.toNat_ofNat', UInt8.toNat_ofNat']
    have fits : (Lead.ofNumber second.toNat).bits + (Lead.ofNumber second.toNat).mark < 256 := by
      grind [Lead.ofNumber, Lead.mark, leading]
    omega
  · right
    rw [byte, following]
    exact ⟨rfl, trailing_append_lt bits smaller front back⟩

theorem flatMap_utf8EncodeChar_lt {first second : List Char} (less : first < second) :
    first.flatMap String.utf8EncodeChar < second.flatMap String.utf8EncodeChar := by
  induction less with
  | nil =>
      rw [List.flatMap_cons, utf8EncodeChar_eq]
      exact .nil
  | rel smaller => exact utf8EncodeChar_append_lt smaller _ _
  | cons _ induction =>
      rw [List.flatMap_cons, List.flatMap_cons]
      exact List.append_left_lt induction

theorem encode_lt_of_lt {first second : String} (less : first < second) :
    encode first < encode second := by
  have characters := flatMap_utf8EncodeChar_lt (String.lt_iff.mp less)
  rwa [← encode_ofList, ← encode_ofList, String.ofList_toList, String.ofList_toList] at characters

end Abacus.Text.Utf8
