import Dispatch.Text.Percent
import Mathlib.Tactic

/-!
# Text and its bytes

Both readers give a text back from its UTF-8 bytes.  A text without a
percent sign has no such byte either, so that percent-decoding leaves it as it
is.
-/

namespace Dispatch
namespace Text

/-! ## One step of the reader -/

namespace Reader

theorem read_idle_cons (byte : UInt8) (bytes : Bytes) :
    read .idle (byte :: bytes) =
      (start byte).1 ++ read (start byte).2 bytes := rfl

section

variable {value : Nat} {needed range : ByteRange} {later : List ByteRange}
  {byte : UInt8}

theorem read_within_last (hholds : needed.Holds byte) (bytes : Bytes) :
    read (.within value needed []) (byte :: bytes) =
      some (Char.ofNat (value * 64 + byte.toNat % 64)) :: read .idle bytes := by
  simp [read, step, hholds]

theorem read_within_more (hholds : needed.Holds byte) (bytes : Bytes) :
    read (.within value needed (range :: later)) (byte :: bytes) =
      read (.within (value * 64 + byte.toNat % 64) range later) bytes := by
  simp [read, step, hholds]

end

theorem start_of_lt_0x80 {byte : UInt8} (hbyte : byte.toNat < 0x80) :
    start byte = ([some (Char.ofNat byte.toNat)], .idle) := by
  simp [start, hbyte]

theorem start_of_two {byte : UInt8} (hlow : 0xC2 ≤ byte.toNat)
    (hhigh : byte.toNat ≤ 0xDF) :
    start byte = ([], .within (byte.toNat % 32) .continuation []) := by
  have hascii : ¬byte.toNat < 0x80 := by omega
  simp [start, hascii, hlow, hhigh]

/-- The second byte of three is restricted after the least first byte, and
where surrogates would stand. -/
theorem start_of_three {byte : UInt8} (hlow : 0xE0 ≤ byte.toNat)
    (hhigh : byte.toNat ≤ 0xEF) :
    ∃ needed,
      start byte =
        ([], .within (byte.toNat % 16) needed [.continuation]) ∧
      ∀ second, ByteRange.continuation.Holds second →
        (byte.toNat = 0xE0 → 0xA0 ≤ second.toNat) →
        (byte.toNat = 0xED → second.toNat ≤ 0x9F) → needed.Holds second := by
  have hascii : ¬byte.toNat < 0x80 := by omega
  have htwo : ¬byte.toNat ≤ 0xDF := by omega
  by_cases hleast : byte.toNat = 0xE0
  · refine ⟨⟨0xA0, 0xBF⟩, by simp [start, hleast], ?_⟩
    intro second hsecond hleast' _
    exact ⟨hleast' hleast, hsecond.2⟩
  · by_cases hsurrogates : byte.toNat = 0xED
    · refine ⟨⟨0x80, 0x9F⟩, by simp [start, hsurrogates], ?_⟩
      intro second hsecond _ hbound
      exact ⟨hsecond.1, hbound hsurrogates⟩
    · have hrest : 0xE1 ≤ byte.toNat := by omega
      refine ⟨.continuation, ?_, fun _ hsecond _ _ => hsecond⟩
      simp [start, hascii, htwo, hleast, hsurrogates, hrest, hhigh]

/-- The second byte of four is restricted after the least first byte and after
the greatest. -/
theorem start_of_four {byte : UInt8} (hlow : 0xF0 ≤ byte.toNat)
    (hhigh : byte.toNat ≤ 0xF4) :
    ∃ needed,
      start byte =
        ([], .within (byte.toNat % 8) needed [.continuation, .continuation]) ∧
      ∀ second, ByteRange.continuation.Holds second →
        (byte.toNat = 0xF0 → 0x90 ≤ second.toNat) →
        (byte.toNat = 0xF4 → second.toNat ≤ 0x8F) → needed.Holds second := by
  have hascii : ¬byte.toNat < 0x80 := by omega
  have htwo : ¬byte.toNat ≤ 0xDF := by omega
  have hthree : ¬byte.toNat ≤ 0xEF := by omega
  by_cases hleast : byte.toNat = 0xF0
  · refine ⟨⟨0x90, 0xBF⟩, by simp [start, hleast], ?_⟩
    intro second hsecond hleast' _
    exact ⟨hleast' hleast, hsecond.2⟩
  · by_cases hgreatest : byte.toNat = 0xF4
    · refine ⟨⟨0x80, 0x8F⟩, by simp [start, hgreatest], ?_⟩
      intro second hsecond _ hbound
      exact ⟨hsecond.1, hbound hgreatest⟩
    · have hrest : 0xF1 ≤ byte.toNat ∧ byte.toNat ≤ 0xF3 := by omega
      have hE0 : byte.toNat ≠ 0xE0 := by omega
      have hED : byte.toNat ≠ 0xED := by omega
      refine ⟨.continuation, ?_, fun _ hsecond _ _ => hsecond⟩
      simp [start, hascii, htwo, hthree, hE0, hED, hleast, hrest]

/-! ## Reading a character back -/

/-- The byte that carries the last six bits of a value. -/
theorem toNat_continuation (value : Nat) :
    (UInt8.ofNat (value % 64 + 128)).toNat = value % 64 + 128 := by
  rw [UInt8.toNat_ofNat']
  omega

theorem continuation_holds (value : Nat) :
    ByteRange.continuation.Holds (UInt8.ofNat (value % 64 + 128)) := by
  change 0x80 ≤ (UInt8.ofNat (value % 64 + 128)).toNat ∧
    (UInt8.ofNat (value % 64 + 128)).toNat ≤ 0xBF
  rw [toNat_continuation]
  omega

theorem read_one {value : Nat} (hbound : value < 0x80) (rest : Bytes) :
    read .idle (UInt8.ofNat value :: rest) =
      some (Char.ofNat value) :: read .idle rest := by
  have hlead : (UInt8.ofNat value).toNat = value := by
    rw [UInt8.toNat_ofNat']
    omega
  rw [read_idle_cons, start_of_lt_0x80 (by omega), hlead]
  rfl

theorem read_two {value : Nat} (hlow : 0x80 ≤ value) (hhigh : value < 0x800)
    (rest : Bytes) :
    read .idle (UInt8.ofNat (value / 64 % 32 + 192) ::
        UInt8.ofNat (value % 64 + 128) :: rest) =
      some (Char.ofNat value) :: read .idle rest := by
  have hlead : (UInt8.ofNat (value / 64 % 32 + 192)).toNat =
      value / 64 + 192 := by
    rw [UInt8.toNat_ofNat']
    omega
  have hvalue : (value / 64 + 192) % 32 * 64 + (value % 64 + 128) % 64 =
      value := by
    omega
  rw [read_idle_cons, start_of_two (by omega) (by omega), List.nil_append,
    read_within_last (continuation_holds value), toNat_continuation, hlead,
    hvalue]

theorem read_three {value : Nat} (hlow : 0x800 ≤ value)
    (hvalid : value < 0xD800 ∨ 0xDFFF < value ∧ value < 0x10000)
    (rest : Bytes) :
    read .idle (UInt8.ofNat (value / 4096 % 16 + 224) ::
        UInt8.ofNat (value / 64 % 64 + 128) ::
          UInt8.ofNat (value % 64 + 128) :: rest) =
      some (Char.ofNat value) :: read .idle rest := by
  have hlead : (UInt8.ofNat (value / 4096 % 16 + 224)).toNat =
      value / 4096 + 224 := by
    rw [UInt8.toNat_ofNat']
    omega
  have hsecond := toNat_continuation (value / 64)
  have hvalue : ((value / 4096 + 224) % 16 * 64 +
      (value / 64 % 64 + 128) % 64) * 64 + (value % 64 + 128) % 64 =
        value := by
    omega
  have hfirst : 0xE0 ≤ (UInt8.ofNat (value / 4096 % 16 + 224)).toNat := by
    omega
  obtain ⟨needed, hstart, hneeded⟩ := start_of_three hfirst (by omega)
  have hholds := hneeded _ (continuation_holds (value / 64)) (by omega)
    (by omega)
  rw [read_idle_cons, hstart, List.nil_append, read_within_more hholds,
    read_within_last (continuation_holds value), hlead, hsecond,
    toNat_continuation, hvalue]

theorem read_four {value : Nat} (hlow : 0x10000 ≤ value)
    (hhigh : value < 0x110000) (rest : Bytes) :
    read .idle (UInt8.ofNat (value / 262144 % 8 + 240) ::
        UInt8.ofNat (value / 4096 % 64 + 128) ::
          UInt8.ofNat (value / 64 % 64 + 128) ::
            UInt8.ofNat (value % 64 + 128) :: rest) =
      some (Char.ofNat value) :: read .idle rest := by
  have hlead : (UInt8.ofNat (value / 262144 % 8 + 240)).toNat =
      value / 262144 + 240 := by
    rw [UInt8.toNat_ofNat']
    omega
  have hsecond := toNat_continuation (value / 4096)
  have hthird := toNat_continuation (value / 64)
  have hvalue : (((value / 262144 + 240) % 8 * 64 +
      (value / 4096 % 64 + 128) % 64) * 64 +
        (value / 64 % 64 + 128) % 64) * 64 + (value % 64 + 128) % 64 =
          value := by
    omega
  have hfirst : 0xF0 ≤ (UInt8.ofNat (value / 262144 % 8 + 240)).toNat := by
    omega
  obtain ⟨needed, hstart, hneeded⟩ := start_of_four hfirst (by omega)
  have hholds := hneeded _ (continuation_holds (value / 4096)) (by omega)
    (by omega)
  rw [read_idle_cons, hstart, List.nil_append, read_within_more hholds,
    read_within_more (continuation_holds (value / 64)),
    read_within_last (continuation_holds value), hlead, hsecond, hthird,
    toNat_continuation, hvalue]

theorem read_utf8EncodeChar (c : Char) (rest : Bytes) :
    read .idle (String.utf8EncodeChar c ++ rest) =
      some c :: read .idle rest := by
  have hvalid : c.toNat < 0xD800 ∨ 0xDFFF < c.toNat ∧ c.toNat < 0x110000 :=
    c.valid
  have hchar : Char.ofNat c.toNat = c := Char.ofNat_toNat c
  have htoNat : c.val.toNat = c.toNat := rfl
  unfold String.utf8EncodeChar
  simp only [htoNat]
  split_ifs with hone htwo hthree
  · rw [List.cons_append, List.nil_append, read_one (by omega), hchar]
  · simp only [List.cons_append, List.nil_append]
    rw [read_two (by omega) (by omega), hchar]
  · simp only [List.cons_append, List.nil_append]
    rw [read_three (by omega) (by omega), hchar]
  · simp only [List.cons_append, List.nil_append]
    rw [read_four (by omega) (by omega), hchar]

end Reader

/-! ## Whole texts -/

theorem read_utf8 (text : String) :
    Reader.read .idle (utf8 text) = text.toList.map some := by
  unfold utf8
  induction text.toList with
  | nil => rfl
  | cons c rest ih =>
      rw [List.flatMap_cons, Reader.read_utf8EncodeChar, ih, List.map_cons]

theorem ofUtf8Lossy_utf8 (text : String) : ofUtf8Lossy (utf8 text) = text := by
  unfold ofUtf8Lossy
  rw [read_utf8]
  simp

theorem ofUtf8?_utf8 (text : String) : ofUtf8? (utf8 text) = some text := by
  have hread : text.toList.mapM some = some text.toList := by
    simpa using List.mapM_pure (m := Option) (l := text.toList) (f := id)
  unfold ofUtf8?
  rw [read_utf8]
  simp [hread]

/-! ## Texts without a percent sign -/

theorem toNat_of_mem_utf8EncodeChar {c : Char} {byte : UInt8}
    (hmem : byte ∈ String.utf8EncodeChar c) :
    byte.toNat = c.toNat ∨ 0x80 ≤ byte.toNat := by
  have htoNat : c.val.toNat = c.toNat := rfl
  unfold String.utf8EncodeChar at hmem
  simp only [htoNat] at hmem
  split_ifs at hmem with hone htwo hthree
  · obtain rfl := List.mem_singleton.mp hmem
    refine Or.inl ?_
    rw [UInt8.toNat_ofNat']
    omega
  all_goals
    refine Or.inr ?_
    simp only [List.mem_cons, List.not_mem_nil, or_false] at hmem
    rcases hmem with rfl | hmem
    · rw [UInt8.toNat_ofNat']
      omega
    · obtain ⟨high, rfl⟩ :
          ∃ high, byte = UInt8.ofNat (high % 64 + 128) := by
        grind
      exact (Reader.continuation_holds high).1

theorem percent_not_mem_utf8 {text : String} (hpercent : '%' ∉ text.toList) :
    (0x25 : UInt8) ∉ utf8 text := by
  intro hmem
  obtain ⟨c, hc, hbyte⟩ := List.mem_flatMap.mp hmem
  have htoNat : (0x25 : UInt8).toNat = 0x25 := rfl
  rcases toNat_of_mem_utf8EncodeChar hbyte with hsame | hhigh
  · have hchar : c = '%' := Char.ext (UInt32.toNat_inj.mp (hsame.symm.trans htoNat))
    exact hpercent (hchar ▸ hc)
  · omega

theorem percentUnescape_of_not_mem {bytes : Bytes}
    (hpercent : (0x25 : UInt8) ∉ bytes) : percentUnescape bytes = bytes := by
  fun_induction percentUnescape bytes with
  | case1 => rfl
  | case2 => simp at hpercent
  | case3 => simp at hpercent
  | case4 byte high low rest hne ih =>
      rw [ih fun hmem => hpercent (List.mem_cons_of_mem _ hmem)]
  | case5 byte rest hshort ih =>
      rw [ih fun hmem => hpercent (List.mem_cons_of_mem _ hmem)]

/-- Percent-decoding leaves a text without a percent sign as it is. -/
theorem percentDecode_of_not_mem {text : String}
    (hpercent : '%' ∉ text.toList) : percentDecode text = text := by
  unfold percentDecode
  rw [percentUnescape_of_not_mem (percent_not_mem_utf8 hpercent),
    ofUtf8Lossy_utf8]

end Text
end Dispatch
