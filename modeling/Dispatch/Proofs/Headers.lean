import Dispatch.AllowList
import Dispatch.Http.Headers
import Dispatch.Proofs.Text.Utf8
import Mathlib.Tactic

/-!
# Visible texts as header values

A text of visible ASCII characters and spaces is a legal header value, and is
read back from it.  Method names are tokens, so every allow list can be put into
a header.
-/

namespace Dispatch

/-! ## Visible texts -/

def IsVisible (c : Char) : Prop :=
  32 ≤ c.toNat ∧ c.toNat < 127

theorem utf8EncodeChar_of_lt_0x80 {c : Char} (hbound : c.toNat < 0x80) :
    String.utf8EncodeChar c = [UInt8.ofNat c.toNat] := by
  have htoNat : c.val.toNat = c.toNat := rfl
  unfold String.utf8EncodeChar
  rw [htoNat, if_pos (by omega)]

theorem isVisibleByte_of_mem_utf8 {text : String}
    (hvisible : ∀ c ∈ text.toList, IsVisible c) :
    ∀ byte ∈ Text.utf8 text, isVisibleByte byte = true := by
  intro byte hmem
  obtain ⟨c, hc, hbyte⟩ := List.mem_flatMap.mp hmem
  obtain ⟨hlow, hhigh⟩ := hvisible c hc
  rw [utf8EncodeChar_of_lt_0x80 (by omega)] at hbyte
  obtain rfl := List.mem_singleton.mp hbyte
  simp [isVisibleByte, UInt8.le_iff_toNat_le, UInt8.lt_iff_toNat_lt]
  omega

theorem isHeaderByte_of_isVisibleByte {byte : UInt8}
    (hvisible : isVisibleByte byte = true) : isHeaderByte byte = true := by
  simp only [isVisibleByte, isHeaderByte, Bool.or_eq_true, Bool.and_eq_true,
    decide_eq_true_eq] at hvisible ⊢
  exact hvisible.imp_right fun hrange => ⟨hrange.1, UInt8.ne_of_lt hrange.2⟩

/-- A visible text is a header value, and is read back from it. -/
theorem HeaderValue.exists_ofText? {text : String}
    (hvisible : ∀ c ∈ text.toList, IsVisible c) :
    ∃ value, ofText? text = some value ∧ value.text? = some text := by
  have hbytes := isVisibleByte_of_mem_utf8 hvisible
  have hlegal : (Text.utf8 text).all isHeaderByte = true :=
    List.all_eq_true.mpr fun byte hmem =>
      isHeaderByte_of_isVisibleByte (hbytes byte hmem)
  refine ⟨⟨Text.utf8 text, hlegal⟩, ?_, ?_⟩
  · rw [ofText?, ofBytes?, dif_pos hlegal]
  · rw [text?, if_pos (List.all_eq_true.mpr hbytes), Text.ofUtf8?_utf8]

/-! ## Tokens -/

theorem isVisible_of_isTokenChar {c : Char} (htoken : isTokenChar c = true) :
    IsVisible c := by
  unfold isTokenChar at htoken
  rw [Bool.or_eq_true] at htoken
  rcases htoken with halphanum | hsign
  · unfold Char.isAlphanum Char.isAlpha Char.isUpper Char.isLower Char.isDigit
      at halphanum
    simp only [ge_iff_le, UInt32.le_iff_toNat_le, Bool.or_eq_true,
      Bool.and_eq_true, decide_eq_true_eq, Char.reduceVal,
      UInt32.reduceToNat] at halphanum
    change 32 ≤ c.val.toNat ∧ c.val.toNat < 127
    omega
  · have hall : ∀ sign ∈ ['!', '#', '$', '%', '&', '\'', '*', '+', '-', '.', '^',
        '_', '\x60', '|', '~'], IsVisible sign := by
      simp [IsVisible]
    exact hall c (by simpa using hsign)

theorem Method.isVisible_name (method : Method) :
    ∀ c ∈ method.name.toList, IsVisible c := by
  have htoken := method.isToken_name
  simp only [isToken, Bool.and_eq_true, List.all_eq_true] at htoken
  intro c hmem
  exact isVisible_of_isTokenChar (htoken.2 c hmem)

namespace AllowList

theorem isVisible_headerValue (allow : AllowList) :
    ∀ c ∈ allow.headerValue.toList, IsVisible c := by
  have hbetween : ∀ c ∈ ", ".toList, IsVisible c := by
    simp [IsVisible]
  unfold headerValue
  induction allow.methods with
  | nil => simp
  | cons method rest ih =>
      cases rest with
      | nil => simpa using method.isVisible_name
      | cons other rest =>
          rw [List.map_cons, List.map_cons, String.intercalate_cons_cons]
          simp only [String.toList_append, List.forall_mem_append]
          exact ⟨⟨method.isVisible_name, hbetween⟩, ih⟩

end AllowList

namespace Headers

theorem values_set_empty (name : HeaderName) (value : HeaderValue) :
    (empty.set name value).values name = [value] := by
  simp [set, remove, append, place, values, empty]

end Headers
end Dispatch
