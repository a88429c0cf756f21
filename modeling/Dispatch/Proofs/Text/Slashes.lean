import Dispatch.Proofs.Pieces
import Dispatch.Proofs.Text.Utf8
import Mathlib.Tactic

/-!
# Texts up to repeated slashes

Squeezing a text replaces each run of slashes by one.  What is left is spelled
out by the parts between slashes and by whether the text begins and ends with
one.

A slash is one byte, which neither an escape nor a long character can hold, so
a text can be decoded on both sides of a slash alone.  Texts that are the same
up to repeated slashes therefore stay so when they are decoded, even though
decoding may bring more slashes.
-/

namespace Dispatch

/-! ## Squeezing -/

/-- A text with one slash in place of each run of slashes. -/
def squeeze : List Char → List Char
  | [] => []
  | c :: rest =>
    if c = '/' ∧ rest.head? = some '/' then squeeze rest else c :: squeeze rest

@[simp] theorem squeeze_nil : squeeze [] = [] := rfl

@[simp] theorem squeeze_slash_slash (rest : List Char) :
    squeeze ('/' :: '/' :: rest) = squeeze ('/' :: rest) := by
  simp [squeeze]

theorem squeeze_cons_of_ne {c : Char} (hc : c ≠ '/') (rest : List Char) :
    squeeze (c :: rest) = c :: squeeze rest := by
  simp [squeeze, hc]

theorem squeeze_slash_of_head? {rest : List Char}
    (hrest : rest.head? ≠ some '/') :
    squeeze ('/' :: rest) = '/' :: squeeze rest := by
  simp [squeeze, hrest]

theorem squeeze_append_slash_slash (before after : List Char) :
    squeeze (before ++ '/' :: '/' :: after) =
      squeeze (before ++ '/' :: after) := by
  induction before with
  | nil => simp
  | cons c rest ih =>
      have hhead : (rest ++ '/' :: '/' :: after).head? =
          (rest ++ '/' :: after).head? := by
        cases rest <;> rfl
      simp only [List.cons_append, squeeze, hhead, ih]

theorem slashParts_ne_nil {c : Char} (hc : c ≠ '/') (rest : List Char) :
    slashParts (c :: rest) ≠ [] := by
  rw [slashParts_cons_of_ne hc]
  split
  · split_ifs <;> simp
  · simp

/-- A slash and a text after it are spelled out by the parts of the text. -/
theorem squeeze_slash_cons (text : List Char) :
    squeeze ('/' :: text) =
      (slashParts text).flatMap ('/' :: ·) ++
        if ('/' :: text).getLast? = some '/' then ['/'] else [] := by
  induction text with
  | nil => simp [squeeze]
  | cons c rest ih =>
      by_cases hc : c = '/'
      · subst c
        rw [squeeze_slash_slash, ih, slashParts_slash_cons,
          List.getLast?_cons_cons]
      · have hhead : (c :: rest).head? ≠ some '/' := by simpa using hc
        rw [squeeze_slash_of_head? hhead, squeeze_cons_of_ne hc,
          slashParts_cons_of_ne hc, List.getLast?_cons_cons]
        cases rest with
        | nil => simp [hc]
        | cons d more =>
            rw [List.getLast?_cons_cons] at ih ⊢
            by_cases hd : d = '/'
            · subst d
              rw [squeeze_slash_slash] at ih
              rw [ih]
              cases slashParts ('/' :: more) <;> simp
            · have hhead : (d :: more).head? ≠ some '/' := by simpa using hd
              rw [squeeze_slash_of_head? hhead] at ih
              obtain ⟨part, others, hparts⟩ :=
                List.exists_cons_of_ne_nil (slashParts_ne_nil hd more)
              rw [hparts] at ih
              simpa [hparts, hd] using ih

/-- Texts that begin with no slash are the same up to repeated slashes if they
have the same parts and end alike. -/
theorem squeeze_eq_of_slashParts {text other : List Char}
    (htext : text.head? ≠ some '/') (hother : other.head? ≠ some '/')
    (hparts : slashParts text = slashParts other)
    (hlast : text.getLast? = some '/' ↔ other.getLast? = some '/') :
    squeeze text = squeeze other := by
  have hshape := squeeze_slash_cons text
  have hshape' := squeeze_slash_cons other
  rw [squeeze_slash_of_head? htext] at hshape
  rw [squeeze_slash_of_head? hother] at hshape'
  cases text with
  | nil =>
      cases other with
      | nil => rfl
      | cons d more =>
          have hd : d ≠ '/' := by simpa using hother
          exact (slashParts_ne_nil hd more hparts.symm).elim
  | cons c rest =>
      cases other with
      | nil =>
          have hc : c ≠ '/' := by simpa using htext
          exact (slashParts_ne_nil hc rest hparts).elim
      | cons d more =>
          rw [List.getLast?_cons_cons] at hshape hshape'
          have hsame : '/' :: squeeze (c :: rest) =
              '/' :: squeeze (d :: more) := by
            rw [hshape, hshape', hparts]
            simp only [hlast]
          exact (List.cons.inj hsame).2

/-! ## The text from a piece on -/

theorem head?_fromPiece (text : List Char) (index : Nat) :
    (fromPiece text index).head? ≠ some '/' := by
  induction index generalizing text with
  | zero =>
      rw [fromPiece]
      intro hhead
      obtain ⟨rest, hrest⟩ := List.head?_eq_some_iff.mp hhead
      exact ne_slash_of_dropWhile hrest rfl
  | succ index ih => exact ih _

theorem fromPiece_suffix (text : List Char) (index : Nat) :
    fromPiece text index <:+ text := by
  induction index generalizing text with
  | zero => exact List.dropWhile_suffix _
  | succ index ih =>
      exact (ih _).trans ((List.dropWhile_suffix _).trans
        (List.dropWhile_suffix _))

theorem slashParts_fromPiece (text : List Char) (index : Nat) :
    slashParts (fromPiece text index) = (slashParts text).drop index := by
  induction index generalizing text with
  | zero =>
      rw [fromPiece, ← spans_map_fst, spans_dropWhile_slash, spans_map_fst,
        List.drop_zero]
  | succ index ih =>
      have hparts : slashParts text = slashParts (text.dropWhile (· = '/')) := by
        rw [← spans_map_fst, ← spans_map_fst, spans_dropWhile_slash]
      rw [fromPiece, ih, hparts]
      cases hrest : text.dropWhile (· = '/') with
      | nil => simp
      | cons c rest =>
          have hc := ne_slash_of_dropWhile hrest
          rw [← spans_map_fst (c :: rest), spans_cons_of_ne hc, List.map_cons,
            List.drop_succ_cons, spans_map_fst,
            List.dropWhile_cons_of_pos (by simpa using hc)]

theorem fromPiece_eq_nil_iff {text : List Char} {index : Nat} :
    fromPiece text index = [] ↔ (slashParts text).drop index = [] := by
  rw [← slashParts_fromPiece]
  cases hrest : fromPiece text index with
  | nil => simp
  | cons c rest =>
      have hhead := head?_fromPiece text index
      have hc : c ≠ '/' := by simpa [hrest] using hhead
      simpa using slashParts_ne_nil hc rest

theorem getLast?_fromPiece {text : List Char} {index : Nat}
    (hne : fromPiece text index ≠ []) :
    (fromPiece text index).getLast? = text.getLast? := by
  obtain ⟨before, hbefore⟩ := fromPiece_suffix text index
  rw [← hbefore, List.getLast?_append_of_ne_nil _ hne, hbefore]

/-- Of texts with the same parts that end alike, the rests from a piece on are
the same up to repeated slashes. -/
theorem squeeze_fromPiece {text other : List Char}
    (hparts : slashParts text = slashParts other)
    (hlast : text.getLast? = some '/' ↔ other.getLast? = some '/')
    (index : Nat) :
    squeeze (fromPiece text index) = squeeze (fromPiece other index) := by
  have hboth : fromPiece text index = [] ↔ fromPiece other index = [] := by
    rw [fromPiece_eq_nil_iff, fromPiece_eq_nil_iff, hparts]
  by_cases hnil : fromPiece text index = []
  · rw [hnil, hboth.mp hnil]
  · refine squeeze_eq_of_slashParts (head?_fromPiece text index)
      (head?_fromPiece other index) ?_ ?_
    · rw [slashParts_fromPiece, slashParts_fromPiece, hparts]
    · rw [getLast?_fromPiece hnil, getLast?_fromPiece (mt hboth.mpr hnil), hlast]

/-! ## Decoding -/

namespace Text

theorem utf8_append_slash (before after : List Char) :
    utf8 (String.ofList (before ++ '/' :: after)) =
      utf8 (String.ofList before) ++ 0x2F :: utf8 (String.ofList after) := by
  have hslash : String.utf8EncodeChar '/' = [0x2F] := by decide
  simp [utf8, hslash]

theorem percentUnescape_cons_of_ne {byte : UInt8} (hbyte : byte ≠ 0x25)
    (rest : Bytes) :
    percentUnescape (byte :: rest) = byte :: percentUnescape rest := by
  match rest with
  | [] => simp [percentUnescape]
  | [low] => simp [percentUnescape]
  | high :: low :: more => rw [percentUnescape, if_neg hbyte]

/-- An escape needs two digits. -/
theorem percentUnescape_of_not_hex {byte high low : UInt8} (rest : Bytes)
    (hnot : hexDigitByte? high = none ∨ hexDigitByte? low = none) :
    percentUnescape (byte :: high :: low :: rest) =
      byte :: percentUnescape (high :: low :: rest) := by
  rw [percentUnescape]
  split_ifs with hpercent
  · split
    · next hhigh hlow => simp [hhigh, hlow] at hnot
    · rfl
  · rfl

theorem percentUnescape_append_slash (before after : Bytes) :
    percentUnescape (before ++ 0x2F :: after) =
      percentUnescape before ++ 0x2F :: percentUnescape after := by
  have hslash : percentUnescape (0x2F :: after) =
      0x2F :: percentUnescape after :=
    percentUnescape_cons_of_ne (by decide) after
  have hhex : hexDigitByte? 0x2F = none := by decide
  fun_induction percentUnescape before with
  | case1 => simp [hslash]
  | case2 high low rest h l hhigh hlow ih =>
      simp [percentUnescape, hhigh, hlow, ih]
  | case3 high low rest hnot ih =>
      have hnone : hexDigitByte? high = none ∨ hexDigitByte? low = none := by
        by_contra hboth
        simp only [not_or, ← ne_eq, Option.ne_none_iff_exists'] at hboth
        obtain ⟨⟨h, hhigh⟩, l, hlow⟩ := hboth
        exact hnot h l hhigh hlow
      simp only [List.cons_append] at ih ⊢
      rw [percentUnescape_of_not_hex _ hnone, ih]
  | case4 byte high low rest hne ih =>
      rw [List.cons_append, percentUnescape_cons_of_ne hne, ih]
      rfl
  | case5 byte rest hshort ih =>
      rw [List.cons_append, List.cons_append, ← ih]
      match rest with
      | [] =>
          cases after with
          | nil => simp [percentUnescape]
          | cons low more => exact percentUnescape_of_not_hex more (Or.inl hhex)
      | [high] => exact percentUnescape_of_not_hex after (Or.inr hhex)
      | high :: low :: more => exact (hshort high low more rfl).elim

namespace Reader

/-- A reader inside a character waits for bytes that are not ASCII. -/
def WaitsHigh : Reader → Prop
  | .idle => True
  | .within _ needed later => ∀ range ∈ needed :: later, 0x80 ≤ range.low

theorem waitsHigh_start (byte : UInt8) : (start byte).2.WaitsHigh := by
  unfold start
  dsimp only
  split_ifs <;> simp [WaitsHigh, ByteRange.continuation]

theorem WaitsHigh.step {reader : Reader} (hreader : reader.WaitsHigh)
    (byte : UInt8) : (reader.step byte).2.WaitsHigh := by
  cases reader with
  | idle => exact waitsHigh_start byte
  | within value needed later =>
      by_cases hholds : needed.Holds byte
      · cases later with
        | nil => simp [Reader.step, hholds, WaitsHigh]
        | cons range ranges =>
            have hlater := (List.forall_mem_cons.mp hreader).2
            simpa [Reader.step, hholds, WaitsHigh] using hlater
      · simpa [Reader.step, hholds] using waitsHigh_start byte

theorem read_cons (reader : Reader) (byte : UInt8) (bytes : Bytes) :
    read reader (byte :: bytes) =
      (reader.step byte).1 ++ read (reader.step byte).2 bytes := by
  cases reader <;> rfl

/-- A slash ends whatever was begun before it. -/
theorem read_append_slash {reader : Reader} (hreader : reader.WaitsHigh)
    (before after : Bytes) :
    read reader (before ++ 0x2F :: after) =
      read reader before ++ some '/' :: read .idle after := by
  have hstart : start 0x2F = ([some '/'], .idle) := by decide
  induction before generalizing reader with
  | nil =>
      rw [List.nil_append, read_cons]
      cases reader with
      | idle => simp [Reader.step, hstart, read]
      | within value needed later =>
          have hlow : 0x80 ≤ needed.low := hreader needed List.mem_cons_self
          have hnot : ¬needed.Holds 0x2F := by
            intro hholds
            have hbyte : needed.low ≤ 0x2F := hholds.1
            omega
          simp [Reader.step, hnot, hstart, read]
  | cons byte before ih =>
      rw [List.cons_append, read_cons, read_cons, ih (hreader.step byte),
        List.append_assoc]

end Reader

theorem percentDecode_append_slash (before after : List Char) :
    (percentDecode (String.ofList (before ++ '/' :: after))).toList =
      (percentDecode (String.ofList before)).toList ++
        '/' :: (percentDecode (String.ofList after)).toList := by
  have hidle : Reader.idle.WaitsHigh := trivial
  unfold percentDecode ofUtf8Lossy
  rw [utf8_append_slash, percentUnescape_append_slash,
    Reader.read_append_slash hidle]
  simp

/-- Two slashes are decoded as one would be, but for the second slash. -/
theorem squeeze_percentDecode_slash_slash (before after : List Char) :
    squeeze (percentDecode
        (String.ofList (before ++ '/' :: '/' :: after))).toList =
      squeeze (percentDecode
        (String.ofList (before ++ '/' :: after))).toList := by
  have hinner := percentDecode_append_slash [] after
  have hempty : (percentDecode (String.ofList [])).toList = [] := by decide
  rw [List.nil_append, hempty, List.nil_append] at hinner
  rw [percentDecode_append_slash, percentDecode_append_slash, hinner,
    squeeze_append_slash_slash]

theorem squeeze_percentDecode_append (before text : List Char) :
    squeeze (percentDecode (String.ofList (before ++ text))).toList =
      squeeze (percentDecode (String.ofList (before ++ squeeze text))).toList := by
  induction text generalizing before with
  | nil => rfl
  | cons c rest ih =>
      by_cases hrun : c = '/' ∧ rest.head? = some '/'
      · obtain ⟨rfl, hhead⟩ := hrun
        obtain ⟨more, rfl⟩ := List.head?_eq_some_iff.mp hhead
        rw [squeeze_percentDecode_slash_slash, squeeze_slash_slash, ih]
      · have hkept : squeeze (c :: rest) = c :: squeeze rest := by
          rw [squeeze, if_neg hrun]
        have hmoved := ih (before ++ [c])
        simp only [List.append_assoc, List.singleton_append] at hmoved
        rw [hkept, hmoved]

/-- Decoding keeps texts the same up to repeated slashes. -/
theorem squeeze_percentDecode {text other : String}
    (hsame : squeeze text.toList = squeeze other.toList) :
    squeeze (percentDecode text).toList =
      squeeze (percentDecode other).toList := by
  have htext := squeeze_percentDecode_append [] text.toList
  have hother := squeeze_percentDecode_append [] other.toList
  rw [hsame] at htext
  simpa using htext.trans hother.symm

end Text
end Dispatch
