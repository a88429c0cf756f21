import Dispatch.Json.Value
import Mathlib.Tactic

/-!
# Written JSON is read back

A quoted text is read back as it was, whatever characters it holds.  Each of
them is written as one part of a string: as itself, by the letter of its
escape, or by its number, which is then that of a control and no half of a
surrogate pair.  A decimal number is read up to its last digit, and an object
member by member.

All of this holds in front of any text, so that the parts of a JSON text can be
read one after the other.
-/

namespace Dispatch

namespace Text

theorem hexDigit?_digitChar {digit : Nat} (hdigit : digit < 16) :
    hexDigit? (Nat.digitChar digit) = some digit := by
  have hall : ∀ digit < 16, hexDigit? (Nat.digitChar digit) = some digit := by
    decide
  exact hall digit hdigit

end Text

namespace JsonValue

/-! ## Strings -/

/-- The part is the character, wherever it stands. -/
def StringPart.Spells (part : StringPart) (c : Char) : Prop :=
  ∀ parts, joinParts (part :: parts) = (joinParts parts).map (c :: ·)

theorem StringPart.spells_char (c : Char) : (StringPart.char c).Spells c :=
  fun _ => rfl

/-- A number below the surrogates needs no other half. -/
theorem StringPart.spells_unit {value : Nat} (hvalue : value < 0xD800) :
    (StringPart.unit value).Spells (Char.ofNat value) := by
  intro parts
  cases parts with
  | nil =>
      have hplain : ¬ (0xD800 ≤ value ∧ value < 0xE000) := by omega
      simp [joinParts, hplain]
  | cons part rest =>
      have hhigh : ¬ (0xD800 ≤ value ∧ value < 0xDC00) := by omega
      have hlow : ¬ (0xDC00 ≤ value ∧ value < 0xE000) := by omega
      simp [joinParts, hhigh, hlow]

/-- In front of any text, the part is read first. -/
def ReadsAs (written : List Char) (part : StringPart) : Prop :=
  ∀ rest, stringParts (written ++ rest) =
    (stringParts rest).map fun read => (part :: read.1, read.2)

theorem readsAs_plain {c : Char} (hquote : c ≠ '"') (hslash : c ≠ '\\')
    (hprintable : ¬ c.toNat < 0x20) : ReadsAs [c] (.char c) := by
  intro rest
  simp [stringParts, hslash, hprintable, Option.map_eq_bind]

theorem readsAs_shortEscape {letter c : Char} (hletter : letter ≠ 'u')
    (hescape : shortEscape? letter = some c) :
    ReadsAs ['\\', letter] (.char c) := by
  intro rest
  simp [stringParts, hletter, hescape, Option.map_eq_bind]

theorem hex4?_control {value : Nat} (hvalue : value < 0x20) :
    hex4? '0' '0' (Nat.digitChar (value / 16)) (Nat.digitChar (value % 16)) =
      some value := by
  have hzero : Text.hexDigit? '0' = some 0 := rfl
  have hquotient : value / 16 < 16 := by omega
  have hhigh := Text.hexDigit?_digitChar hquotient
  have hlow := Text.hexDigit?_digitChar (Nat.mod_lt value (by decide : 0 < 16))
  have hsum : value / 16 * 16 + value % 16 = value := Nat.div_add_mod' value 16
  simp [hex4?, hzero, hhigh, hlow, hsum]

theorem readsAs_control {c : Char} (hcontrol : c.toNat < 0x20) :
    ReadsAs (['\\', 'u', '0', '0'] ++ Text.hexByte c.toNat.toUInt8)
      (.unit c.toNat) := by
  intro rest
  have hbyte : c.toNat.toUInt8.toNat = c.toNat := by
    rw [Nat.toUInt8_eq, UInt8.toNat_ofNat']
    omega
  simp [Text.hexByte, hbyte, stringParts, hex4?_control hcontrol,
    Option.map_eq_bind]

theorem exists_readsAs_escapeChar (c : Char) :
    ∃ part : StringPart, ReadsAs (escapeChar c) part ∧ part.Spells c := by
  have hshort : ∀ letter ≠ 'u', shortEscape? letter = some c →
      ∃ part : StringPart, ReadsAs ['\\', letter] part ∧ part.Spells c :=
    fun letter hletter hescape => ⟨.char c,
      readsAs_shortEscape hletter hescape, StringPart.spells_char c⟩
  unfold escapeChar
  split_ifs with hquote hslash hback hfeed hline hreturn htab hcontrol
  · exact hshort '"' (by decide) (by rw [hquote]; rfl)
  · exact hshort '\\' (by decide) (by rw [hslash]; rfl)
  · exact hshort 'b' (by decide) (by rw [hback]; rfl)
  · exact hshort 'f' (by decide) (by rw [hfeed]; rfl)
  · exact hshort 'n' (by decide) (by rw [hline]; rfl)
  · exact hshort 'r' (by decide) (by rw [hreturn]; rfl)
  · exact hshort 't' (by decide) (by rw [htab]; rfl)
  · refine ⟨.unit c.toNat, readsAs_control hcontrol, ?_⟩
    have hplain : c.toNat < 0xD800 := by omega
    have hspells := StringPart.spells_unit hplain
    rwa [Char.ofNat_toNat] at hspells
  · exact ⟨.char c, readsAs_plain hquote hslash hcontrol,
      StringPart.spells_char c⟩

theorem exists_stringParts_escaped (text rest : List Char) :
    ∃ parts, stringParts (text.flatMap escapeChar ++ '"' :: rest) =
        some (parts, rest) ∧
      joinParts parts = some text := by
  induction text with
  | nil => exact ⟨[], rfl, rfl⟩
  | cons c text ih =>
      obtain ⟨parts, hread, hjoined⟩ := ih
      obtain ⟨part, hreads, hspells⟩ := exists_readsAs_escapeChar c
      refine ⟨part :: parts, ?_, ?_⟩
      · rw [List.flatMap_cons, List.append_assoc, hreads, hread]
        rfl
      · rw [hspells, hjoined]
        rfl

theorem toList_quote (text : String) :
    (quote text).toList =
      '"' :: (text.toList.flatMap escapeChar ++ ['"']) := by
  simp [quote]

/-- A quoted text is read back behind its opening quote. -/
theorem readString_escaped (text : String) (rest : List Char) :
    readString (text.toList.flatMap escapeChar ++ '"' :: rest) =
      some (some text, rest) := by
  obtain ⟨parts, hread, hjoined⟩ :=
    exists_stringParts_escaped text.toList rest
  simp [readString, hread, hjoined]

/-! ## Numbers -/

theorem head?_toDigits {n : Nat} (hpos : 0 < n) :
    (Nat.toDigits 10 n).head? ≠ some '0' := by
  induction n using Nat.strong_induction_on with
  | _ n ih =>
    rw [Nat.toDigits_eq_if (by decide)]
    split_ifs with hdigit
    · have hall : ∀ n < 10, 0 < n → Nat.digitChar n ≠ '0' := by decide
      simpa using hall n hdigit hpos
    · have hleft := ih (n / 10) (by omega) (by omega)
      rw [List.head?_append_of_ne_nil _ Nat.toDigits_ne_nil]
      exact hleft

/-- A text at which a decimal number ends. -/
def EndsDecimal (rest : List Char) : Prop :=
  ∀ c ∈ rest.head?, c.isDigit = false ∧ c ≠ '.' ∧ c ≠ 'e' ∧ c ≠ 'E'

section

variable {rest : List Char}

theorem readDigits_toDigits (n : Nat) (hends : EndsDecimal rest) :
    readDigits (Nat.toDigits 10 n ++ rest) =
      some (Nat.toDigits 10 n, rest) := by
  have hdigits : ∀ c ∈ Nat.toDigits 10 n, c.isDigit = true :=
    fun c hmem => Nat.isDigit_of_mem_toDigits (by decide) le_rfl hmem
  have htake : rest.takeWhile Char.isDigit = [] := by
    cases rest with
    | nil => rfl
    | cons c rest => simp [(hends c rfl).1]
  have hdrop : rest.dropWhile Char.isDigit = rest := by
    cases rest with
    | nil => rfl
    | cons c rest => simp [(hends c rfl).1]
  simp [readDigits, List.takeWhile_append_of_pos hdigits,
    List.dropWhile_append_of_pos hdigits, htake, hdrop, Nat.toDigits_ne_nil]

theorem readInteger_toDigits (n : Nat) (hends : EndsDecimal rest) :
    readInteger (Nat.toDigits 10 n ++ rest) =
      some (Nat.toDigits 10 n, rest) := by
  have hleading : ¬ ((Nat.toDigits 10 n).head? = some '0' ∧
      (Nat.toDigits 10 n).length ≠ 1) := by
    rintro ⟨hhead, hlength⟩
    rcases Nat.eq_zero_or_pos n with rfl | hpos
    · exact hlength rfl
    · exact head?_toDigits hpos hhead
  simp only [readInteger, readDigits_toDigits n hends]
  simp [hleading]

theorem toList_toString (n : Nat) :
    (toString n).toList = Nat.toDigits 10 n := by
  rw [Nat.toString_eq_ofList_toDigits, String.toList_ofList]

theorem exists_toString_eq_cons (n : Nat) :
    ∃ digit digits, (toString n).toList = digit :: digits ∧
      digit.isDigit = true := by
  rw [toList_toString]
  obtain ⟨digit, digits, hdigits⟩ :=
    List.exists_cons_of_ne_nil (Nat.toDigits_ne_nil (n := n) (b := 10))
  refine ⟨digit, digits, hdigits, ?_⟩
  apply Nat.isDigit_of_mem_toDigits (b := 10) (n := n) (by decide) le_rfl
  rw [hdigits]
  exact List.mem_cons_self

theorem ne_of_isDigit {c other : Char} (hdigit : c.isDigit = true)
    (hother : other.isDigit = false) : c ≠ other := by
  rintro rfl
  rw [hdigit] at hother
  contradiction

theorem readFraction_of_endsDecimal (hends : EndsDecimal rest) :
    readFraction rest = some ([], rest) := by
  unfold readFraction
  split
  · next tail => exact absurd rfl (hends '.' rfl).2.1
  · rfl

theorem readExponent_of_endsDecimal (hends : EndsDecimal rest) :
    readExponent rest = some ([], rest) := by
  cases rest with
  | nil => rfl
  | cons c rest =>
      obtain ⟨_, _, hsmall, hcapital⟩ := hends c rfl
      simp [readExponent, hsmall, hcapital]

theorem readNumber_toString (n : Nat) (hends : EndsDecimal rest) :
    readNumber ((toString n).toList ++ rest) = some (toString n, rest) := by
  obtain ⟨digit, digits, hdigits, hdigit⟩ := exists_toString_eq_cons n
  have hsign : digit ≠ '-' := ne_of_isDigit hdigit rfl
  have hinteger := readInteger_toDigits n hends
  have htext : String.ofList (digit :: digits) = toString n := by
    rw [← hdigits, String.ofList_toList]
  rw [← toList_toString, hdigits, List.cons_append] at hinteger
  rw [hdigits, List.cons_append]
  simp only [readNumber]
  split
  · next heq => exact absurd (List.cons.inj heq).1 hsign
  · simp [hinteger, readFraction_of_endsDecimal hends,
      readExponent_of_endsDecimal hends, htext]

end

/-! ## Values -/

theorem skipBlank_cons {c : Char} (hblank : isBlank c = false)
    (rest : List Char) : skipBlank (c :: rest) = c :: rest := by
  simp [skipBlank, hblank]

theorem isBlank_of_isDigit {c : Char} (hdigit : c.isDigit = true) :
    isBlank c = false := by
  have hne : ∀ blank ∈ [' ', '\t', '\n', '\r'], c ≠ blank := by
    intro blank hmem
    apply ne_of_isDigit hdigit
    simp only [List.mem_cons, List.not_mem_nil, or_false] at hmem
    rcases hmem with rfl | rfl | rfl | rfl <;> rfl
  simpa [isBlank, and_assoc] using hne

section

variable {depth : Nat} {text rest : List Char}

theorem readValue_quote (depth : Nat) (text : String) (rest : List Char) :
    readValue (depth + 1) ((quote text).toList ++ rest) =
      some (.string text, rest) := by
  rw [toList_quote, List.cons_append, List.append_assoc, readValue,
    skipBlank_cons rfl]
  simp [readString_escaped]

theorem readValue_toString (depth n : Nat) (hends : EndsDecimal rest) :
    readValue (depth + 1) ((toString n).toList ++ rest) =
      some (.number (toString n), rest) := by
  have hnumber := readNumber_toString n hends
  obtain ⟨digit, digits, hdigits, hdigit⟩ := exists_toString_eq_cons n
  rw [hdigits, List.cons_append] at hnumber ⊢
  rw [readValue, skipBlank_cons (isBlank_of_isDigit hdigit)]
  split
  case h_7 => simp [hnumber]
  all_goals
    rename_i heq
    obtain ⟨rfl, _⟩ := List.cons.inj heq
    contradiction

/-- The last member of an object. -/
theorem readMembers_last (name : String) {value : JsonValue}
    (hvalue : readValue depth text = some (value, '}' :: rest)) :
    readMembers (depth + 1) ((quote name).toList ++ ':' :: text) =
      some ([(some name, value)], rest) := by
  rw [toList_quote, List.cons_append, List.append_assoc, readMembers,
    skipBlank_cons rfl]
  simp [readString_escaped, skipBlank_cons, isBlank, hvalue]

theorem readMembers_more (name : String) {value : JsonValue}
    {members : List (Option String × JsonValue)} {more : List Char}
    (hvalue : readValue depth text = some (value, ',' :: more))
    (hmore : readMembers depth more = some (members, rest)) :
    readMembers (depth + 1) ((quote name).toList ++ ':' :: text) =
      some ((some name, value) :: members, rest) := by
  rw [toList_quote, List.cons_append, List.append_assoc, readMembers,
    skipBlank_cons rfl]
  simp [readString_escaped, skipBlank_cons, isBlank, hvalue, hmore]

theorem readValue_object {name : String}
    {members : List (Option String × JsonValue)}
    (hmembers : readMembers depth ((quote name).toList ++ text) =
      some (members, rest)) :
    readValue (depth + 1) ('{' :: ((quote name).toList ++ text)) =
      some (.object members, rest) := by
  simp only [toList_quote, List.cons_append, List.append_assoc,
    List.nil_append] at hmembers ⊢
  rw [readValue, skipBlank_cons rfl]
  simp [skipBlank_cons, isBlank, hmembers]

end

end JsonValue
end Dispatch
