import Dispatch.Proofs.Templates
import Mathlib.Tactic

/-!
# Which requests a pattern stands for

`Takes` says how the segments of a pattern use up the pieces of a path.  It is
a relation of its own: neither the trie nor the map of normal paths occurs in
it, so that both can be measured against it.

Compiling gives well-placed segments: only the last one may be a wildcard or an
end anchor, and every literal is a piece.
-/

namespace Dispatch

/-- The segments use up all pieces of a path in order.  The path ends in a
slash if `trailing` holds. -/
inductive Takes (trailing : Prop) : List Segment → List String → Prop where
  | done : Takes trailing [] []
  | literal {text : String} {rest : List Segment} {pieces : List String}
      (htail : Takes trailing rest pieces) :
      Takes trailing (.literal text :: rest) (text :: pieces)
  | param {name piece : String} {rest : List Segment} {pieces : List String}
      (htail : Takes trailing rest pieces) :
      Takes trailing (.param name :: rest) (piece :: pieces)
  | wildcard {name : String} {pieces : List String} (hne : pieces ≠ []) :
      Takes trailing [.wildcard name] pieces
  | endAnchor (htrailing : trailing) : Takes trailing [.endAnchor] []

section

variable {trailing : Prop} {name text : String} {rest : List Segment}
  {pieces : List String}

@[simp] theorem takes_nil_iff : Takes trailing [] pieces ↔ pieces = [] := by
  constructor
  · intro htakes
    cases htakes
    rfl
  · rintro rfl
    exact .done

@[simp] theorem takes_literal_iff :
    Takes trailing (.literal text :: rest) pieces ↔
      ∃ tail, pieces = text :: tail ∧ Takes trailing rest tail := by
  constructor
  · intro htakes
    cases htakes with
    | literal htail => exact ⟨_, rfl, htail⟩
  · rintro ⟨tail, rfl, htail⟩
    exact .literal htail

@[simp] theorem takes_param_iff :
    Takes trailing (.param name :: rest) pieces ↔
      ∃ piece tail, pieces = piece :: tail ∧ Takes trailing rest tail := by
  constructor
  · intro htakes
    cases htakes with
    | param htail => exact ⟨_, _, rfl, htail⟩
  · rintro ⟨piece, tail, rfl, htail⟩
    exact .param htail

@[simp] theorem takes_wildcard_iff :
    Takes trailing (.wildcard name :: rest) pieces ↔
      rest = [] ∧ pieces ≠ [] := by
  constructor
  · intro htakes
    cases htakes with
    | wildcard hne => exact ⟨rfl, hne⟩
  · rintro ⟨rfl, hne⟩
    exact .wildcard hne

@[simp] theorem takes_endAnchor_iff :
    Takes trailing (.endAnchor :: rest) pieces ↔
      rest = [] ∧ pieces = [] ∧ trailing := by
  constructor
  · intro htakes
    cases htakes with
    | endAnchor htrailing => exact ⟨rfl, rfl, htrailing⟩
  · rintro ⟨rfl, rfl, htrailing⟩
    exact .endAnchor htrailing

end

/-- The segments that can take no piece: none at all, or the end anchor. -/
theorem takes_nil_pieces_iff {trailing : Prop} {segments : List Segment} :
    Takes trailing segments [] ↔
      segments = [] ∨ segments = [.endAnchor] ∧ trailing := by
  cases segments with
  | nil => simp
  | cons segment rest => cases segment <;> simp

namespace Pattern

def Accepts (pattern : Pattern) (target : String) : Prop :=
  Takes (Target.Trailing target) pattern.segments (Target.pieces target)

/-- GET routes answer HEAD, and a route without a method answers every
method. -/
def AnswersMethod (pattern : Pattern) (method : Method) : Prop :=
  pattern.method = some method ∨
    method = .head ∧ pattern.method = some .get ∨ pattern.method = none

def Serves (pattern : Pattern) (method : Method) (target : String) : Prop :=
  pattern.AnswersMethod method ∧ pattern.Accepts target

end Pattern

/-! ## Compiled patterns -/

/-- Only the last segment may be a wildcard or an end anchor, and a literal is
a piece. -/
def WellPlaced : List Segment → Prop
  | [] => True
  | segment :: rest =>
    (∀ text, segment = .literal text → IsPiece text) ∧
      (segment.IsFinal → rest = []) ∧ WellPlaced rest

theorem WellPlaced.tail {segment : Segment} {rest : List Segment}
    (hplaced : WellPlaced (segment :: rest)) : WellPlaced rest :=
  hplaced.2.2

/-- A wildcard stands behind all other segments, and only once. -/
theorem WellPlaced.exists_init {segments : List Segment} {name : String}
    (hplaced : WellPlaced segments) (hmem : .wildcard name ∈ segments) :
    ∃ init, segments = init ++ [.wildcard name] ∧
      ∀ other, .wildcard other ∉ init := by
  induction segments with
  | nil => simp at hmem
  | cons segment rest ih =>
      by_cases hfinal : segment.IsFinal
      · obtain rfl := hplaced.2.1 hfinal
        obtain rfl := List.mem_singleton.mp hmem
        exact ⟨[], rfl, by simp⟩
      · have hne : ∀ other, Segment.wildcard other ≠ segment := by
          rintro other rfl
          exact hfinal trivial
        obtain ⟨init, rfl, hinit⟩ :=
          ih hplaced.tail ((List.mem_cons.mp hmem).resolve_left (hne name))
        refine ⟨segment :: init, rfl, ?_⟩
        intro other
        simp [hne other, hinit other]

theorem wellPlaced_of_spells {parts : List (List Char)}
    {segments : List Segment}
    (hpieces : ∀ part ∈ parts, IsPiece (String.ofList part))
    (hspells : List.Forall₂ Spells parts segments)
    (hlast : FinalLast segments) : WellPlaced segments := by
  induction hspells with
  | nil => trivial
  | cons hfirst _ ih =>
      rw [List.forall_mem_cons] at hpieces
      refine ⟨?_, hlast.1, ih hpieces.2 hlast.2⟩
      rintro text rfl
      cases hfirst
      exact hpieces.1

namespace Pattern

def Compiled (pattern : Pattern) : Prop :=
  ∃ template method, compile template method = .ok pattern

theorem Compiled.wellPlaced {pattern : Pattern} (hcompiled : pattern.Compiled) :
    WellPlaced pattern.segments := by
  obtain ⟨template, method, hcompile⟩ := hcompiled
  obtain ⟨_, _, _, hspells, hlast, _⟩ := compile_eq_ok_iff.mp hcompile
  refine wellPlaced_of_spells ?_ hspells hlast
  intro part hmem
  obtain ⟨hne, hslash, _⟩ := mem_slashParts hmem
  exact ⟨by simpa using hne, by simpa using hslash⟩

end Pattern
end Dispatch
