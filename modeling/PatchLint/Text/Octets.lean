/-!
Octets and the texts they encode in UTF-8.

`Octets.text?` reads valid UTF-8 only. `Octets.lossyText` reads anything: what is no
UTF-8 is cut into maximal ill-formed parts, each of which becomes U+FFFD, and a valid
encoding is read as itself (`text?_ofText`, `lossyText_ofText`).
-/

namespace PatchLint

abbrev Octets := List UInt8

namespace Octets

def ofText (s : String) : Octets :=
  s.toUTF8.data.toList

/-- The text that the octets encode, if they are valid UTF-8. -/
def text? (bytes : Octets) : Option String :=
  String.fromUTF8? ⟨bytes.toArray⟩

/-- What may follow a leading octet: how many continuation octets, and the least and
the greatest the first of them may be. -/
structure Lead where
  value : Nat
  tail : Nat
  least : UInt8
  greatest : UInt8

def lead? (b : UInt8) : Option Lead :=
  let n := b.toNat
  if n ≤ 0x7F then some ⟨n, 0, 0x80, 0xBF⟩
  else if 0xC2 ≤ n ∧ n ≤ 0xDF then some ⟨n - 0xC0, 1, 0x80, 0xBF⟩
  else if n = 0xE0 then some ⟨0, 2, 0xA0, 0xBF⟩
  else if n = 0xED then some ⟨0xD, 2, 0x80, 0x9F⟩
  else if 0xE1 ≤ n ∧ n ≤ 0xEF then some ⟨n - 0xE0, 2, 0x80, 0xBF⟩
  else if n = 0xF0 then some ⟨0, 3, 0x90, 0xBF⟩
  else if 0xF1 ≤ n ∧ n ≤ 0xF3 then some ⟨n - 0xF0, 3, 0x80, 0xBF⟩
  else if n = 0xF4 then some ⟨4, 3, 0x80, 0x8F⟩
  else none

/-- Reads `tail` continuation octets after a lead of value `value`: the code point,
absent when a continuation is missing, and the octets that were not used. -/
def continuation (value : Nat) : (tail : Nat) → (least greatest : UInt8) → Octets →
    Option Nat × Octets
  | 0, _, _, bytes => (some value, bytes)
  | _ + 1, _, _, [] => (none, [])
  | tail + 1, least, greatest, b :: rest =>
    if least ≤ b ∧ b ≤ greatest then
      continuation (value * 64 + (b.toNat - 0x80)) tail 0x80 0xBF rest
    else (none, b :: rest)

theorem continuation_length_le (value tail : Nat) (least greatest : UInt8) (bytes : Octets) :
    (continuation value tail least greatest bytes).2.length ≤ bytes.length := by
  induction tail generalizing value least greatest bytes with
  | zero => simp [continuation]
  | succ tail ih =>
    cases bytes with
    | nil => simp [continuation]
    | cons b rest =>
      simp only [continuation]
      split
      · exact Nat.le_succ_of_le (ih ..)
      · simp

/-- The first code point, absent for an ill-formed part, and the octets after it. -/
def next (b : UInt8) (rest : Octets) : Option Nat × Octets :=
  match lead? b with
  | none => (none, rest)
  | some lead => continuation lead.value lead.tail lead.least lead.greatest rest

theorem next_length_le (b : UInt8) (rest : Octets) : (next b rest).2.length ≤ rest.length := by
  unfold next
  split
  · simp
  · exact continuation_length_le ..

/-- The characters of the octets, U+FFFD for each ill-formed part. -/
def lossyChars : Octets → List Char
  | [] => []
  | b :: rest =>
    have := next_length_le b rest
    (match (next b rest).1 with
      | some n => Char.ofNat n
      | none => '\uFFFD') :: lossyChars (next b rest).2
termination_by bytes => bytes.length
decreasing_by simp; omega

def lossyText (bytes : Octets) : String :=
  match text? bytes with
  | some s => s
  | none => String.ofList (lossyChars bytes)

/-! ### Reading back -/

/-- **The octets of a text encode that text.** -/
@[simp] theorem text?_ofText (s : String) : text? (ofText s) = some s := by
  have bytes : (⟨(ofText s).toArray⟩ : ByteArray) = s.toByteArray := rfl
  unfold text? String.fromUTF8?
  rw [bytes, dif_pos s.isValidUTF8]
  rfl

@[simp] theorem lossyText_ofText (s : String) : lossyText (ofText s) = s := by
  rw [lossyText, text?_ofText]

/-- A text takes the octets of its characters. -/
theorem length_ofText_cons (c : Char) (cs : List Char) :
    (ofText (String.ofList (c :: cs))).length =
      c.utf8Size + (ofText (String.ofList cs)).length := by
  have octets : ∀ cs, (ofText (String.ofList cs)).length = cs.utf8Encode.size := fun _ => rfl
  rw [octets, octets, List.utf8Encode_cons, ByteArray.size_append, List.utf8Encode_singleton,
    List.size_toByteArray, String.length_utf8EncodeChar]

/-- A character takes one octet at least. -/
theorem length_le_length_ofText (s : String) : s.toList.length ≤ (ofText s).length := by
  obtain ⟨cs, rfl⟩ : ∃ cs, s = String.ofList cs := ⟨s.toList, by simp⟩
  rw [String.toList_ofList]
  induction cs with
  | nil => exact Nat.zero_le _
  | cons c cs ih =>
      have one := c.utf8Size_pos
      rw [length_ofText_cons, List.length_cons]
      omega

end Octets

end PatchLint
