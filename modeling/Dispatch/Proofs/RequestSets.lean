import Dispatch.Proofs.Verdicts
import Mathlib.Tactic

/-!
# The verdict on two patterns is exact

Without end anchors, what a pattern matches is a product: the methods it answers
and the piece lists it takes.  A piece list in turn is a first piece and the
rest, so the verdict on two patterns is assembled from the verdicts on single
positions.  Only wildcards have to be treated as a whole.

Literals with a question mark are left out, since no request can spell them.
-/

namespace Dispatch

def IsRequestPiece (text : String) : Prop :=
  IsPiece text ∧ '?' ∉ text.toList

/-! ## One piece -/

namespace Segment

/-- Not an end anchor, nor a literal that no request can spell. -/
def IsPlain : Segment → Prop
  | .literal text => '?' ∉ text.toList
  | .param _ | .wildcard _ => True
  | .endAnchor => False

instance : DecidablePred IsPlain
  | .literal text => inferInstanceAs (Decidable ('?' ∉ text.toList))
  | .param _ | .wildcard _ => .isTrue trivial
  | .endAnchor => .isFalse id

def taken : Segment → Set String
  | .literal text => {text}
  | .param _ => {piece | IsRequestPiece piece}
  | .wildcard _ | .endAnchor => ∅

def TakesOne : Segment → Prop
  | .literal text => IsRequestPiece text
  | .param _ => True
  | .wildcard _ | .endAnchor => False

theorem TakesOne.not_isWildcard {segment : Segment}
    (hone : segment.TakesOne) : ¬segment.IsWildcard := by
  rintro ⟨name, rfl⟩
  exact hone

theorem taken_subset {segment : Segment} (hone : segment.TakesOne) :
    ∀ piece ∈ segment.taken, IsRequestPiece piece := by
  intro piece hmem
  cases segment with
  | literal text =>
      obtain rfl : piece = text := hmem
      exact hone
  | param name => exact hmem
  | wildcard name => exact hone.elim
  | endAnchor => exact hone.elim

end Segment

theorem isRequestPiece_a : IsRequestPiece "a" := by
  unfold IsRequestPiece IsPiece
  decide

theorem exists_other_piece (text : String) :
    ∃ piece, IsRequestPiece piece ∧ piece ≠ text := by
  by_cases htext : text = "a"
  · refine ⟨"b", ?_, ?_⟩
    · unfold IsRequestPiece IsPiece
      decide
    · rw [htext]
      decide
  · exact ⟨"a", isRequestPiece_a, Ne.symm htext⟩

theorem Segment.taken_nonempty {segment : Segment} (hone : segment.TakesOne) :
    segment.taken.Nonempty := by
  cases segment with
  | literal text => exact ⟨text, rfl⟩
  | param name => exact ⟨"a", isRequestPiece_a⟩
  | wildcard name => exact hone.elim
  | endAnchor => exact hone.elim

namespace Specificity

theorem literal_ssubset_param {text : String} (htext : IsRequestPiece text)
    (name : String) :
    (Segment.literal text).taken ⊂ (Segment.param name).taken := by
  obtain ⟨piece, hpiece, hne⟩ := exists_other_piece text
  refine ⟨?_, fun hsub => hne (hsub hpiece)⟩
  rintro _ rfl
  exact htext

theorem ofSegments_holds {a b : Segment} (ha : a.TakesOne) (hb : b.TakesOne) :
    (ofSegments a b).Holds a.taken b.taken := by
  cases a with
  | literal text =>
      cases b with
      | literal other =>
          by_cases htext : text = other
          · subst other
            rw [ofSegments_self]
            rfl
          · have hverdict : ofSegments (.literal text) (.literal other) =
                .disjoint := by simp [ofSegments, htext]
            rw [hverdict]
            exact Set.singleton_inter_eq_empty.mpr htext
      | param name => exact literal_ssubset_param ha name
      | wildcard name => exact hb.elim
      | endAnchor => exact hb.elim
  | param name =>
      cases b with
      | literal text => exact literal_ssubset_param hb name
      | param other => exact rfl
      | wildcard other => exact hb.elim
      | endAnchor => exact hb.elim
  | wildcard name => exact ha.elim
  | endAnchor => exact ha.elim

end Specificity

/-! ## Piece lists -/

/-- Segments that each take one piece, with or without a wildcard at the end. -/
inductive PlainPath : List Segment → Prop where
  | nil : PlainPath []
  | wildcard (name : String) : PlainPath [.wildcard name]
  | cons {segment : Segment} {rest : List Segment} (hone : segment.TakesOne)
      (hrest : PlainPath rest) : PlainPath (segment :: rest)

theorem WellPlaced.plainPath {segments : List Segment}
    (hplaced : WellPlaced segments)
    (hplain : ∀ segment ∈ segments, segment.IsPlain) : PlainPath segments := by
  induction segments with
  | nil => exact .nil
  | cons segment rest ih =>
      have hfirst := hplain segment List.mem_cons_self
      have hrest : PlainPath rest := ih hplaced.tail fun other hmem =>
        hplain other (List.mem_cons_of_mem _ hmem)
      cases segment with
      | literal text => exact .cons ⟨hplaced.1 text rfl, hfirst⟩ hrest
      | param name => exact .cons trivial hrest
      | wildcard name =>
          obtain rfl := hplaced.2.1 trivial
          exact .wildcard name
      | endAnchor => exact hfirst.elim

def piecesTaken (segments : List Segment) : Set (List String) :=
  {pieces | (∀ piece ∈ pieces, IsRequestPiece piece) ∧
    Takes False segments pieces}

/-- Without an end anchor it makes no difference whether a path ends in a
slash. -/
theorem PlainPath.takes_iff {segments : List Segment} {pieces : List String}
    (hplain : PlainPath segments) (trailing : Prop) :
    Takes trailing segments pieces ↔ Takes False segments pieces := by
  induction hplain generalizing pieces with
  | nil => simp
  | wildcard name => simp
  | @cons segment rest hone hrest ih =>
      cases segment with
      | literal text => simp [ih]
      | param name => simp [ih]
      | wildcard name => exact hone.elim
      | endAnchor => exact hone.elim

theorem piecesTaken_cons {segment : Segment} (hone : segment.TakesOne)
    (rest : List Segment) :
    Set.preimage (fun parts : String × List String => parts.1 :: parts.2)
        (piecesTaken (segment :: rest)) =
      segment.taken ×ˢ piecesTaken rest := by
  ext ⟨piece, pieces⟩
  have htakes : IsRequestPiece piece →
      (Takes False (segment :: rest) (piece :: pieces) ↔
        piece ∈ segment.taken ∧ Takes False rest pieces) := by
    intro hpiece
    cases segment with
    | literal text => simp [Segment.taken, and_assoc]
    | param name => simp [Segment.taken, hpiece]
    | wildcard name => exact hone.elim
    | endAnchor => exact hone.elim
  have hsub := Segment.taken_subset hone piece
  simp only [piecesTaken, Set.mem_preimage, Set.mem_ofPred_eq, Set.mem_prod,
    List.forall_mem_cons]
  tauto

theorem piecesTaken_cons_subset {segment : Segment} (hone : segment.TakesOne)
    (rest : List Segment) :
    piecesTaken (segment :: rest) ⊆
      Set.range fun parts : String × List String => parts.1 :: parts.2 := by
  rintro pieces ⟨_, htakes⟩
  cases segment with
  | literal text =>
      obtain ⟨tail, rfl, _⟩ := takes_literal_iff.mp htakes
      exact ⟨(text, tail), rfl⟩
  | param name =>
      obtain ⟨piece, tail, rfl, _⟩ := takes_param_iff.mp htakes
      exact ⟨(piece, tail), rfl⟩
  | wildcard name => exact hone.elim
  | endAnchor => exact hone.elim

theorem PlainPath.piecesTaken_nonempty {segments : List Segment}
    (hplain : PlainPath segments) : (piecesTaken segments).Nonempty := by
  induction hplain with
  | nil => exact ⟨[], by simp, .done⟩
  | wildcard name =>
      refine ⟨["a"], ?_, .wildcard (List.cons_ne_nil _ _)⟩
      simpa using isRequestPiece_a
  | @cons segment rest hone hrest ih =>
      have hboth := (Segment.taken_nonempty hone).prod ih
      rw [← piecesTaken_cons hone] at hboth
      obtain ⟨parts, hparts⟩ := hboth
      exact ⟨_, hparts⟩

theorem not_takes_nil_of_cons (segment : Segment) (rest : List Segment) :
    ¬Takes False (segment :: rest) [] := by
  intro htakes
  rcases takes_nil_pieces_iff.mp htakes with hnil | ⟨_, hfalse⟩
  · contradiction
  · exact hfalse

theorem takes_tail {segment : Segment} {rest : List Segment} {piece : String}
    {pieces : List String} (hone : segment.TakesOne)
    (htakes : Takes False (segment :: rest) (piece :: pieces)) :
    Takes False rest pieces := by
  cases htakes with
  | literal htail => exact htail
  | param htail => exact htail
  | wildcard hne => exact hone.elim

/-- A wildcard takes what any other list takes that is not empty, and more. -/
theorem piecesTaken_ssubset_wildcard {segment : Segment} {rest : List Segment}
    (hone : segment.TakesOne) (name : String) :
    piecesTaken (segment :: rest) ⊂ piecesTaken [.wildcard name] := by
  constructor
  · rintro pieces ⟨hpieces, htakes⟩
    refine ⟨hpieces, .wildcard ?_⟩
    rintro rfl
    exact not_takes_nil_of_cons segment rest htakes
  · intro hsub
    -- a piece list that is too long if nothing follows, and else too short
    have hmiss : ∀ pieces : List String, pieces ≠ [] →
        (∀ piece ∈ pieces, IsRequestPiece piece) →
          Takes False (segment :: rest) pieces := by
      intro pieces hne hpieces
      exact (hsub ⟨hpieces, .wildcard hne⟩).2
    cases rest with
    | nil =>
        have htail := takes_tail hone (hmiss ["a", "a"] (List.cons_ne_nil _ _)
          (by simpa using isRequestPiece_a))
        simp at htail
    | cons next rest =>
        have htail := takes_tail hone (hmiss ["a"] (List.cons_ne_nil _ _)
          (by simpa using isRequestPiece_a))
        exact not_takes_nil_of_cons next rest htail

theorem piecesTaken_wildcard (first second : String) :
    piecesTaken [.wildcard first] = piecesTaken [.wildcard second] := by
  ext pieces
  simp [piecesTaken]

theorem piecesTaken_nil_inter_cons (segment : Segment) (rest : List Segment) :
    piecesTaken [] ∩ piecesTaken (segment :: rest) = ∅ := by
  rw [Set.eq_empty_iff_forall_notMem]
  rintro pieces ⟨⟨_, hnil⟩, _, hcons⟩
  obtain rfl := takes_nil_iff.mp hnil
  exact not_takes_nil_of_cons segment rest hcons

namespace Specificity

theorem ofPaths_nil_holds {right : List Segment} (hright : PlainPath right) :
    (ofPaths [] right).Holds (piecesTaken []) (piecesTaken right) := by
  cases hright with
  | nil => rfl
  | wildcard name =>
      rw [ofPaths_nil_cons]
      exact piecesTaken_nil_inter_cons _ _
  | cons hone hrest =>
      rw [ofPaths_nil_cons]
      exact piecesTaken_nil_inter_cons _ _

theorem ofPaths_holds {left right : List Segment} (hleft : PlainPath left)
    (hright : PlainPath right) :
    (ofPaths left right).Holds (piecesTaken left) (piecesTaken right) := by
  induction hleft generalizing right with
  | nil => exact ofPaths_nil_holds hright
  | wildcard name =>
      cases hright with
      | nil =>
          rw [← inverse_ofPaths]
          exact (ofPaths_nil_holds (.wildcard name)).inverse
      | wildcard other => exact piecesTaken_wildcard name other
      | cons hone hrest =>
          rw [ofPaths_wildcard_left hone.not_isWildcard]
          exact piecesTaken_ssubset_wildcard hone name
  | cons hone hrest ih =>
      cases hright with
      | nil =>
          rw [← inverse_ofPaths]
          exact (ofPaths_nil_holds (.cons hone hrest)).inverse
      | wildcard name =>
          rw [ofPaths_wildcard_right hone.not_isWildcard]
          exact piecesTaken_ssubset_wildcard hone name
      | cons hother hothers =>
          rw [ofPaths_cons hone.not_isWildcard hother.not_isWildcard,
            ← holds_preimage_iff (piecesTaken_cons_subset hone _)
              (piecesTaken_cons_subset hother _),
            piecesTaken_cons hone, piecesTaken_cons hother]
          exact Holds.prod (Segment.taken_nonempty hone)
            (Segment.taken_nonempty hother) hrest.piecesTaken_nonempty
            hothers.piecesTaken_nonempty (ofSegments_holds hone hother)
            (ih hothers)

end Specificity

/-! ## Methods -/

def methodsAnswered (own : Option Method) : Set Method :=
  {method | own = some method ∨ method = .head ∧ own = some .get ∨ own = none}

theorem methodsAnswered_nonempty (own : Option Method) :
    (methodsAnswered own).Nonempty := by
  cases own with
  | none => exact ⟨.get, Or.inr (Or.inr rfl)⟩
  | some method => exact ⟨method, Or.inl rfl⟩

theorem methodsAnswered_some_ssubset (method : Method) :
    methodsAnswered (some method) ⊂ methodsAnswered none := by
  refine ⟨fun _ _ => Or.inr (Or.inr rfl), ?_⟩
  intro hsub
  have hall : ∀ other, other ∈ methodsAnswered (some method) := fun _ =>
    hsub (Or.inr (Or.inr rfl))
  have hget : method = .get := by
    have hnot : ¬(Method.get = .head) := by decide
    simpa [methodsAnswered, hnot] using hall .get
  have hpost := hall .post
  rw [hget] at hpost
  revert hpost
  simp [methodsAnswered]
  decide

theorem mem_methodsAnswered_some {own method : Method} :
    method ∈ methodsAnswered (some own) ↔
      method = own ∨ method = .head ∧ own = .get := by
  simp [methodsAnswered, eq_comm]

theorem head_ssubset_get :
    methodsAnswered (some .head) ⊂ methodsAnswered (some .get) := by
  have hne : Method.get ≠ .head := by decide
  constructor
  · intro method hmem
    rcases mem_methodsAnswered_some.mp hmem with rfl | ⟨_, heq⟩
    · exact mem_methodsAnswered_some.mpr (Or.inr ⟨rfl, rfl⟩)
    · exact (hne heq.symm).elim
  · intro hsub
    rcases mem_methodsAnswered_some.mp
      (hsub (mem_methodsAnswered_some.mpr (Or.inl rfl))) with heq | ⟨heq, _⟩
    · exact hne heq
    · exact hne heq

namespace Specificity

theorem ofMethods_holds (a b : Option Method) :
    (ofMethods a b).Holds (methodsAnswered a) (methodsAnswered b) := by
  cases a with
  | none =>
      cases b with
      | none => rfl
      | some b => exact methodsAnswered_some_ssubset b
  | some a =>
      cases b with
      | none => exact methodsAnswered_some_ssubset a
      | some b =>
          unfold ofMethods
          dsimp only
          split_ifs with hsame hgeneral hspecific
          · exact congrArg _ (congrArg some hsame)
          · obtain ⟨rfl, rfl⟩ := hgeneral
            exact head_ssubset_get
          · obtain ⟨rfl, rfl⟩ := hspecific
            exact head_ssubset_get
          · refine Set.eq_empty_iff_forall_notMem.mpr ?_
            rintro method ⟨hleft, hright⟩
            rw [mem_methodsAnswered_some] at hleft hright
            rcases hleft with rfl | ⟨hhead, rfl⟩
            · rcases hright with heq | hget
              · exact hsame heq
              · exact hspecific hget
            · rcases hright with rfl | ⟨_, rfl⟩
              · exact hgeneral ⟨rfl, hhead⟩
              · exact hsame rfl

end Specificity

/-! ## Patterns -/

namespace Pattern

def matched (pattern : Pattern) : Set (Method × List String) :=
  methodsAnswered pattern.method ×ˢ piecesTaken pattern.segments

theorem compareTo_holds_matched {a b : Pattern} (ha : PlainPath a.segments)
    (hb : PlainPath b.segments) :
    (a.compareTo b).Holds a.matched b.matched :=
  (Specificity.ofMethods_holds a.method b.method).prod
    (methodsAnswered_nonempty a.method) (methodsAnswered_nonempty b.method)
    ha.piecesTaken_nonempty hb.piecesTaken_nonempty
    (Specificity.ofPaths_holds ha hb)

/-- What a request says to a pattern without an end anchor. -/
def requestParts (request : Method × String) : Method × List String :=
  (request.1, Target.pieces request.2)

theorem requestParts_matched {pattern : Pattern}
    (hplain : PlainPath pattern.segments) :
    Set.preimage requestParts pattern.matched =
      {request | pattern.Serves request.1 request.2} := by
  ext ⟨method, target⟩
  have hpieces : ∀ piece ∈ Target.pieces target, IsRequestPiece piece :=
    fun _ => Target.isPiece_of_mem_pieces
  have htakes : pattern.Accepts target ↔
      Takes False pattern.segments (Target.pieces target) :=
    hplain.takes_iff (Target.Trailing target)
  constructor
  · rintro ⟨hmethod, _, htaken⟩
    exact ⟨hmethod, htakes.mpr htaken⟩
  · rintro ⟨hmethod, haccepts⟩
    exact ⟨hmethod, hpieces, htakes.mp haccepts⟩

theorem matched_subset_range (pattern : Pattern) :
    pattern.matched ⊆ Set.range requestParts := by
  rintro ⟨method, pieces⟩ ⟨_, hpieces, _⟩
  exact ⟨(method, Target.ofPieces pieces),
    Prod.ext rfl (Target.pieces_ofPieces hpieces)⟩

end Pattern

end Dispatch
