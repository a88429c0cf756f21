import Dispatch.Proofs.Specificity
import Mathlib.Tactic

/-!
# The verdict as an order on patterns

A pattern covers another one if the verdict on the two is that they are
equivalent or that the first is more general.  Verdicts are combined in such a
way that two patterns cover each other just if their methods, their aligned
segments and their lengths do.  So transitivity is a matter of one position at
a time, but for the lengths: there a wildcard at the end of the middle pattern
has to be covered by one at the end of the first.

Equivalent patterns are for one method and differ in names only, and no verdict
looks at names.
-/

namespace Dispatch

namespace Segment

/-! ## Segments -/

/-- The same segment up to its name. -/
inductive Alike : Segment → Segment → Prop where
  | literal (text : String) : Alike (.literal text) (.literal text)
  | param (name other : String) : Alike (.param name) (.param other)
  | wildcard (name other : String) : Alike (.wildcard name) (.wildcard other)
  | endAnchor : Alike .endAnchor .endAnchor

theorem Alike.symm {first second : Segment} (halike : first.Alike second) :
    second.Alike first := by
  cases halike with
  | literal text => exact .literal text
  | param name other => exact .param other name
  | wildcard name other => exact .wildcard other name
  | endAnchor => exact .endAnchor

theorem alike_of_ofSegments {first second : Segment}
    (hequivalent : Specificity.ofSegments first second = .equivalent) :
    first.Alike second := by
  cases first with
  | literal text =>
      cases second with
      | literal other =>
          by_cases htext : text = other
          · rw [htext]
            exact .literal other
          · simp [Specificity.ofSegments, htext] at hequivalent
      | param name => contradiction
      | wildcard name => contradiction
      | endAnchor => contradiction
  | param name =>
      cases second with
      | param other => exact .param name other
      | literal text => contradiction
      | wildcard other => contradiction
      | endAnchor => contradiction
  | wildcard name =>
      cases second with
      | wildcard other => exact .wildcard name other
      | literal text => contradiction
      | param other => contradiction
      | endAnchor => contradiction
  | endAnchor =>
      cases second with
      | endAnchor => exact .endAnchor
      | literal text => contradiction
      | param other => contradiction
      | wildcard other => contradiction

/-- The first segment counts as taking whatever the second one takes.  Every
wildcard counts as taking the end of a path in a slash. -/
inductive Covers : Segment → Segment → Prop where
  | wildcard (name : String) (segment : Segment) :
      Covers (.wildcard name) segment
  | params (name other : String) : Covers (.param name) (.param other)
  | paramLiteral (name text : String) : Covers (.param name) (.literal text)
  | literal (text : String) : Covers (.literal text) (.literal text)
  | endAnchor : Covers .endAnchor .endAnchor

variable {first second third : Segment}

theorem Covers.trans (hfirst : first.Covers second)
    (hsecond : second.Covers third) : first.Covers third := by
  cases hfirst with
  | wildcard name => exact .wildcard name third
  | params name other =>
      cases hsecond with
      | params => exact .params name _
      | paramLiteral => exact .paramLiteral name _
  | paramLiteral name text =>
      cases hsecond
      exact .paramLiteral name text
  | literal text => exact hsecond
  | endAnchor => exact hsecond

/-- Only a wildcard covers a wildcard. -/
theorem Covers.isWildcard (hcovers : first.Covers second)
    (hsecond : second.IsWildcard) : first.IsWildcard := by
  obtain ⟨name, rfl⟩ := hsecond
  cases hcovers with
  | wildcard other => exact ⟨other, rfl⟩

theorem Alike.ofSegments_eq (halike : first.Alike second) (other : Segment) :
    Specificity.ofSegments first other = Specificity.ofSegments second other := by
  cases halike with
  | literal text => rfl
  | param name renamed => cases other <;> rfl
  | wildcard name renamed => cases other <;> rfl
  | endAnchor => rfl

end Segment

namespace Specificity

/-! ## Covering -/

/-- The left side is taken to include the right one. -/
def Covers (verdict : Specificity) : Prop :=
  verdict = .equivalent ∨ verdict = .moreGeneral

variable {first second verdict : Specificity}

theorem covers_combine_iff :
    (first.combine second).Covers ↔ first.Covers ∧ second.Covers := by
  cases first <;> cases second <;> simp [combine, Covers]

theorem eq_equivalent_of_covers (hcovers : verdict.Covers)
    (hback : verdict.inverse.Covers) : verdict = .equivalent := by
  rcases hcovers with rfl | rfl
  · rfl
  · simp [inverse, Covers] at hback

theorem combine_eq_equivalent {first second : Specificity}
    (hcombined : first.combine second = .equivalent) :
    first = .equivalent ∧ second = .equivalent := by
  cases first <;> cases second <;> first | exact ⟨rfl, rfl⟩ | contradiction

/-! ## Methods -/

theorem inverse_ofMethods (own other : Option Method) :
    (ofMethods own other).inverse = ofMethods other own := by
  cases own with
  | none => cases other <;> rfl
  | some own =>
      cases other with
      | none => rfl
      | some other =>
          by_cases hsame : own = other
          · simp [ofMethods, hsame, inverse]
          · by_cases hget : own = .get ∧ other = .head
            · obtain ⟨rfl, rfl⟩ := hget
              decide
            · by_cases hhead : own = .head ∧ other = .get
              · obtain ⟨rfl, rfl⟩ := hhead
                decide
              · have hget' : ¬(other = .head ∧ own = .get) := fun h =>
                  hget ⟨h.2, h.1⟩
                have hhead' : ¬(other = .get ∧ own = .head) := fun h =>
                  hhead ⟨h.2, h.1⟩
                simp [ofMethods, hsame, Ne.symm hsame, hget, hhead, hget',
                  hhead', inverse]

theorem covers_ofMethods_iff {own other : Option Method} :
    (ofMethods own other).Covers ↔
      own = none ∨ own = other ∨ own = some .get ∧ other = some .head := by
  cases own with
  | none => cases other <;> simp [ofMethods, Covers]
  | some own =>
      cases other with
      | none => simp [ofMethods, Covers]
      | some other =>
          unfold ofMethods
          dsimp only
          split_ifs <;> simp_all [Covers]

theorem covers_ofMethods_trans {a b c : Option Method}
    (hfirst : (ofMethods a b).Covers) (hsecond : (ofMethods b c).Covers) :
    (ofMethods a c).Covers := by
  have hne : Method.head ≠ .get := by decide
  rw [covers_ofMethods_iff] at *
  rcases hfirst with rfl | rfl | ⟨rfl, rfl⟩
  · exact Or.inl rfl
  · exact hsecond
  · rcases hsecond with hnone | rfl | ⟨hget, _⟩
    · contradiction
    · exact Or.inr (Or.inr ⟨rfl, rfl⟩)
    · exact (hne (Option.some.inj hget)).elim

theorem eq_of_ofMethods_equivalent {own other : Option Method}
    (hequivalent : ofMethods own other = .equivalent) :
    own = other := by
  cases own with
  | none =>
      cases other with
      | none => rfl
      | some other => contradiction
  | some own =>
      cases other with
      | none => contradiction
      | some other =>
          unfold ofMethods at hequivalent
          dsimp only at hequivalent
          split_ifs at hequivalent with hsame
          rw [hsame]

/-! ## Paths -/

variable {left middle right : List Segment}

theorem covers_ofSegments_iff {a b : Segment} :
    (ofSegments a b).Covers ↔ a.Covers b := by
  constructor
  · intro hcovers
    rcases hcovers with hequivalent | hgeneral
    · cases Segment.alike_of_ofSegments hequivalent with
      | literal text => exact .literal text
      | param name other => exact .params name other
      | wildcard name other => exact .wildcard name _
      | endAnchor => exact .endAnchor
    · cases a with
      | wildcard name => exact .wildcard name b
      | param name =>
          cases b with
          | literal text => exact .paramLiteral name text
          | param other => contradiction
          | wildcard other => contradiction
          | endAnchor => contradiction
      | literal text =>
          cases b with
          | literal other =>
              simp only [ofSegments] at hgeneral
              split_ifs at hgeneral
          | param name => contradiction
          | wildcard name => contradiction
          | endAnchor => contradiction
      | endAnchor => cases b <;> contradiction
  · intro hcovers
    cases hcovers with
    | wildcard name => cases b <;> simp [ofSegments, Covers]
    | params name other => exact Or.inl rfl
    | paramLiteral name text => exact Or.inr rfl
    | literal text => exact Or.inl (ofSegments_self _)
    | endAnchor => exact Or.inl rfl

theorem covers_ofAligned_iff :
    (ofAligned left right).Covers ↔
      ∀ (index : Nat) (a b : Segment), left[index]? = some a →
        right[index]? = some b → a.Covers b := by
  induction left generalizing right with
  | nil => simp [ofAligned, Covers]
  | cons first left ih =>
      cases right with
      | nil => simp [ofAligned, Covers]
      | cons second right =>
          rw [ofAligned_cons, covers_combine_iff, covers_ofSegments_iff, ih]
          constructor
          · rintro ⟨hfirst, hrest⟩ index a b ha hb
            cases index with
            | zero =>
                obtain rfl := Option.some.inj ha
                obtain rfl := Option.some.inj hb
                exact hfirst
            | succ index => exact hrest index a b ha hb
          · intro hall
            exact ⟨hall 0 first second rfl rfl,
              fun index => hall (index + 1)⟩

theorem covers_ofLengths_iff :
    (ofLengths left right).Covers ↔
      left.length = right.length ∨
        left.length < right.length ∧ endsInWildcard left = true := by
  unfold ofLengths
  split_ifs with hlength hleft hright
  · simp [Covers, hlength]
  · simp [Covers, hleft]
  · simp [Covers, hlength, hleft]
  · simp [Covers, hlength, hleft]

theorem endsInWildcard_iff {segments : List Segment} :
    endsInWildcard segments = true ↔
      ∃ segment, segments[segments.length - 1]? = some segment ∧
        segment.IsWildcard := by
  unfold endsInWildcard
  rw [List.getLast?_eq_getElem?]
  cases segments[segments.length - 1]? with
  | none => simp
  | some segment => cases segment <;> simp [Segment.IsWildcard]

/-- A path that covers a path of its own length ends in a wildcard if the other
one does. -/
theorem endsInWildcard_of_covers (haligned : (ofAligned left right).Covers)
    (hlength : left.length = right.length)
    (hright : endsInWildcard right = true) : endsInWildcard left = true := by
  obtain ⟨last, hlast, hwildcard⟩ := endsInWildcard_iff.mp hright
  have hlt : right.length - 1 < left.length := by
    have hbound := (List.getElem?_eq_some_iff.mp hlast).1
    omega
  have hown : left[left.length - 1]? = some left[right.length - 1] := by
    rw [hlength]
    exact List.getElem?_eq_getElem hlt
  have hcovers := covers_ofAligned_iff.mp haligned (right.length - 1) _ _
    (List.getElem?_eq_getElem hlt) hlast
  exact endsInWildcard_iff.mpr ⟨_, hown, hcovers.isWildcard hwildcard⟩

theorem length_le_of_covers (hlengths : (ofLengths left right).Covers) :
    left.length ≤ right.length := by
  rcases covers_ofLengths_iff.mp hlengths with heq | ⟨hlt, _⟩
  · exact heq.le
  · exact hlt.le

theorem covers_ofPaths_trans (hfirst : (ofPaths left middle).Covers)
    (hsecond : (ofPaths middle right).Covers) : (ofPaths left right).Covers := by
  rw [ofPaths_eq, covers_combine_iff] at *
  obtain ⟨haligned, hlengths⟩ := hfirst
  obtain ⟨haligned', hlengths'⟩ := hsecond
  have hle := length_le_of_covers hlengths
  have hle' := length_le_of_covers hlengths'
  constructor
  · rw [covers_ofAligned_iff] at *
    intro index a c ha hc
    have hindex := (List.getElem?_eq_some_iff.mp ha).1
    have hb := List.getElem?_eq_getElem (hindex.trans_le hle)
    exact (haligned index a _ ha hb).trans (haligned' index _ c hb hc)
  · rw [covers_ofLengths_iff] at *
    rcases hlengths with heq | ⟨hlt, hwildcard⟩
    · rcases hlengths' with heq' | ⟨hlt', hwildcard⟩
      · exact Or.inl (heq.trans heq')
      · exact Or.inr ⟨heq.trans_lt hlt',
          endsInWildcard_of_covers haligned heq hwildcard⟩
    · exact Or.inr ⟨hlt.trans_le hle', hwildcard⟩

/-! ### Renamed paths -/

theorem length_eq_of_ofLengths
    (hlengths : ofLengths left right = .equivalent) :
    left.length = right.length := by
  unfold ofLengths at hlengths
  split_ifs at hlengths with hlength
  exact hlength

theorem alike_of_ofPaths {left right : List Segment}
    (hequivalent : ofPaths left right = .equivalent) :
    List.Forall₂ Segment.Alike left right := by
  rw [ofPaths_eq] at hequivalent
  obtain ⟨haligned, hlengths⟩ := combine_eq_equivalent hequivalent
  have hlength := length_eq_of_ofLengths hlengths
  clear hequivalent hlengths
  induction left generalizing right with
  | nil =>
      obtain rfl := List.length_eq_zero_iff.mp hlength.symm
      exact .nil
  | cons segment left ih =>
      cases right with
      | nil => contradiction
      | cons other right =>
          rw [ofAligned_cons] at haligned
          obtain ⟨hfirst, hrest⟩ := combine_eq_equivalent haligned
          exact .cons (Segment.alike_of_ofSegments hfirst)
            (ih hrest (Nat.succ.inj hlength))

theorem ofAligned_eq_of_alike (halike : List.Forall₂ Segment.Alike left right)
    (other : List Segment) : ofAligned left other = ofAligned right other := by
  induction halike generalizing other with
  | nil => rfl
  | cons hfirst _ ih =>
      cases other with
      | nil => rfl
      | cons segment other =>
          rw [ofAligned_cons, ofAligned_cons, hfirst.ofSegments_eq, ih]

theorem endsInWildcard_eq_of_alike
    (halike : List.Forall₂ Segment.Alike left right) :
    endsInWildcard left = endsInWildcard right := by
  induction halike with
  | nil => rfl
  | cons hfirst hrest ih =>
      cases hrest with
      | nil => cases hfirst <;> rfl
      | cons _ _ =>
          unfold endsInWildcard at ih ⊢
          rw [List.getLast?_cons_cons, List.getLast?_cons_cons, ih]

theorem ofPaths_eq_of_alike (halike : List.Forall₂ Segment.Alike left right)
    (other : List Segment) : ofPaths left other = ofPaths right other := by
  have hlengths : ofLengths left other = ofLengths right other := by
    unfold ofLengths
    rw [halike.length_eq, endsInWildcard_eq_of_alike halike]
  rw [ofPaths_eq, ofPaths_eq, ofAligned_eq_of_alike halike, hlengths]

end Specificity

/-! ## Patterns -/

namespace Pattern

/-- The verdict on two patterns is that the first includes the second. -/
def Covers (a b : Pattern) : Prop :=
  (a.compareTo b).Covers

structure Alike (a b : Pattern) : Prop where
  method : a.method = b.method
  segments : List.Forall₂ Segment.Alike a.segments b.segments

theorem alike_of_compareTo {a b : Pattern}
    (hequivalent : a.compareTo b = .equivalent) : a.Alike b := by
  obtain ⟨hmethods, hpaths⟩ := Specificity.combine_eq_equivalent hequivalent
  exact ⟨Specificity.eq_of_ofMethods_equivalent hmethods,
    Specificity.alike_of_ofPaths hpaths⟩

theorem Alike.symm {a b : Pattern} (halike : a.Alike b) : b.Alike a := by
  refine ⟨halike.method.symm, halike.segments.flip.imp ?_⟩
  intro first second hfirst
  exact Segment.Alike.symm hfirst

variable {a b c : Pattern}

theorem inverse_compareTo (a b : Pattern) :
    (a.compareTo b).inverse = b.compareTo a := by
  unfold compareTo
  rw [Specificity.inverse_combine, Specificity.inverse_ofMethods,
    Specificity.inverse_ofPaths]

theorem compareTo_self (a : Pattern) : a.compareTo a = .equivalent := by
  have hmethods : Specificity.ofMethods a.method a.method = .equivalent := by
    cases a.method <;> simp [Specificity.ofMethods]
  unfold compareTo
  rw [hmethods, Specificity.ofPaths_self]
  rfl

theorem Conflicts.symm (hconflicts : a.Conflicts b) : b.Conflicts a := by
  unfold Conflicts at *
  rw [← inverse_compareTo]
  rcases hconflicts with h | h <;> simp [h, Specificity.inverse]

theorem Covers.trans (hfirst : a.Covers b) (hsecond : b.Covers c) :
    a.Covers c := by
  unfold Covers compareTo at *
  rw [Specificity.covers_combine_iff] at *
  exact ⟨Specificity.covers_ofMethods_trans hfirst.1 hsecond.1,
    Specificity.covers_ofPaths_trans hfirst.2 hsecond.2⟩

theorem compareTo_eq_of_equivalent (hequivalent : a.compareTo b = .equivalent)
    (c : Pattern) : a.compareTo c = b.compareTo c := by
  have halike := alike_of_compareTo hequivalent
  unfold compareTo
  rw [halike.method, Specificity.ofPaths_eq_of_alike halike.segments]

/-- Two patterns that cover each other through a third are equivalent to it. -/
theorem Covers.equivalent (hfirst : a.Covers b) (hsecond : b.Covers c)
    (hequivalent : a.compareTo c = .equivalent) :
    a.compareTo b = .equivalent ∧ b.compareTo c = .equivalent := by
  have hsame := compareTo_eq_of_equivalent hequivalent b
  have hback : a.compareTo b = (b.compareTo c).inverse := by
    rw [hsame, inverse_compareTo]
  have hthird : b.compareTo c = .equivalent :=
    Specificity.eq_equivalent_of_covers hsecond (hback ▸ hfirst)
  refine ⟨?_, hthird⟩
  rw [hback, hthird]
  rfl

/-- The verdict orders patterns up to equivalence. -/
theorem compareTo_order (a b c : Pattern) :
    b.compareTo a = (a.compareTo b).inverse ∧
      (a.Conflicts b ↔ b.Conflicts a) ∧
      a.compareTo a = .equivalent ∧
      (a.Covers b → b.Covers c →
        a.Covers c ∧
          (a.compareTo b = .moreGeneral ∨ b.compareTo c = .moreGeneral →
            a.compareTo c = .moreGeneral)) ∧
      (a.compareTo b = .equivalent →
        a.compareTo c = b.compareTo c ∧ c.compareTo a = c.compareTo b) := by
  refine ⟨(inverse_compareTo a b).symm, ⟨.symm, .symm⟩, compareTo_self a,
    ?_, ?_⟩
  · intro hfirst hsecond
    have hcovers := hfirst.trans hsecond
    refine ⟨hcovers, fun hstrict => hcovers.resolve_left ?_⟩
    intro hequivalent
    obtain ⟨hab, hbc⟩ := hfirst.equivalent hsecond hequivalent
    simp [hab, hbc] at hstrict
  · intro hequivalent
    have hsame := compareTo_eq_of_equivalent hequivalent c
    refine ⟨hsame, ?_⟩
    rw [← inverse_compareTo a c, ← inverse_compareTo b c, hsame]

end Pattern
end Dispatch
