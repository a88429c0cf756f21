import Dispatch.Proofs.Captures
import Dispatch.Proofs.MethodRoutes
import Mathlib.Tactic

/-!
# What a search leaves behind

A search writes captures before it knows that a branch succeeds.  `Leaves` says
all that comes of a search: its answer, and the captures that are added to
whatever store it starts from.  A search that fails adds none, so it does not
matter how many branches failed before the one that is found, nor how deep.

What is added are the captures of the selected slot, read off its segments and
the pieces of the path.
-/

namespace Dispatch

/-- Captures raw texts under names, one after the other. -/
def Captures.captureAll (captures : Captures) (decode : Bool)
    (raws : List (String × String)) : Captures :=
  captures.setAll (raws.map fun entry =>
    (entry.1, captureValue decode entry.2))

theorem Captures.Agrees.captureAll {a b : Captures} (hagrees : a.Agrees b)
    (decode : Bool) (raws : List (String × String)) :
    (a.captureAll decode raws).Agrees (b.captureAll decode raws) :=
  hagrees.setAll _

/-- The names and raw texts that segments capture from the pieces that they
take. -/
def capturedFrom : List Segment → List Piece → List (String × String)
  | .literal _ :: segments, _ :: pieces => capturedFrom segments pieces
  | .param name :: segments, piece :: pieces =>
    (name, piece.text) :: capturedFrom segments pieces
  | .wildcard name :: _, piece :: _ => [(name, piece.rest)]
  | _, _ => []

theorem capturedFrom_literalSlot (texts : List String) (trailing : Bool)
    (pieces : List Piece) :
    capturedFrom (literalSlot texts trailing) pieces = [] := by
  induction texts generalizing pieces with
  | nil => cases trailing <;> rfl
  | cons text rest ih =>
      cases pieces with
      | nil => rfl
      | cons piece pieces => exact ih pieces

/-! ## Searches and their captures -/

namespace Search

/-- A route that was found, with the names and raw texts that its search
captured. -/
structure Leaves (search : Search) (decode : Bool)
    (found : Option (RouteId × List (String × String))) : Prop where
  answers : search.Answers (found.map Prod.fst)
  captures : ∀ captures : Captures, captures.Counted →
    (search captures).2.Agrees
      (captures.captureAll decode ((found.map Prod.snd).getD []))

theorem leaves_ofOption (id : Option RouteId) (decode : Bool) :
    (ofOption id).Leaves decode (id.map fun id => (id, [])) where
  answers := by simpa [Function.comp_def] using answers_ofOption id
  captures := by
    intro captures _
    cases id <;> exact .refl captures

section

variable {first second search : Search} {decode : Bool}
  {a b found : Option (RouteId × List (String × String))}

theorem Leaves.orElse (hfirst : first.Leaves decode a)
    (hsecond : second.Leaves decode b) :
    (first.orElse second).Leaves decode (a.or b) where
  answers := by
    rw [Option.map_or]
    exact hfirst.answers.orElse hsecond.answers
  captures := by
    intro captures hcounted
    have hanswer := hfirst.answers captures
    have hafter := hfirst.captures captures hcounted
    unfold Search.orElse
    cases hsearch : first captures with
    | mk id after =>
        rw [hsearch] at hanswer hafter
        dsimp only at hanswer hafter
        rw [hanswer]
        cases a with
        | some found => exact hafter
        | none =>
            -- a failed search leaves nothing, so the second starts afresh
            have hsame : after.Agrees captures := hafter
            exact (hsecond.captures after (hcounted.of_agrees hsame)).trans
              (hsame.captureAll decode _)

theorem Leaves.capturing (hsearch : search.Leaves decode found)
    (name raw : String) :
    (Search.capturing name raw decode search).Leaves decode
      (found.map fun entry => (entry.1, (name, raw) :: entry.2)) where
  answers := by
    rw [Option.map_map]
    exact hsearch.answers.capturing name raw decode
  captures := by
    intro captures hcounted
    have hanswer := hsearch.answers (captures.capture name raw decode)
    have hafter := hsearch.captures (captures.capture name raw decode)
      (hcounted.set name _)
    unfold Search.capturing
    cases hfind : search (captures.capture name raw decode) with
    | mk id after =>
        rw [hfind] at hanswer hafter
        dsimp only at hanswer hafter
        rw [hanswer]
        cases found with
        | some entry => exact hafter
        | none =>
            have hadded : after.Agrees (captures.setAll
                [(name, Captures.captureValue decode raw)]) := hafter
            exact Captures.Agrees.unwind_of_setAll hcounted hadded

/-- Searches that each leave something for an element leave what they leave for
the first element with an answer. -/
theorem leaves_firstOf_map {α : Type} (list : List α) {search : α → Search}
    {found : α → Option (RouteId × List (String × String))}
    (hleaves : ∀ a ∈ list, (search a).Leaves decode (found a)) :
    (firstOf (list.map search)).Leaves decode (list.findSome? found) := by
  induction list with
  | nil => exact leaves_ofOption none decode
  | cons a rest ih =>
      have hrest := ih fun b hmem => hleaves b (List.mem_cons_of_mem _ hmem)
      have hboth := (hleaves a List.mem_cons_self).orElse hrest
      have hfind : (a :: rest).findSome? found =
          (found a).or (rest.findSome? found) := by
        rw [List.findSome?_cons]
        cases found a <;> rfl
      rw [hfind]
      exact hboth

end

end Search

/-! ## The trie -/

namespace Trie

/-- A claim that takes pieces, with what it captures from them. -/
def Claim.traced (pieces : List Piece) (claim : Claim) :
    RouteId × List (String × String) :=
  (claim.id, capturedFrom claim.segments pieces)

/-- What is captured from the first piece is put before what is captured from
the rest. -/
theorem select_cons_traced (trailing : Bool) (piece : Piece)
    (rest : List Piece) (trie : Trie) :
    (select trailing (List.map Piece.text (piece :: rest)) trie).map
        (Claim.traced (piece :: rest)) =
      ((trie.literals.lookup piece.text).toList.findSome? fun child =>
        (select trailing (rest.map Piece.text) child).map
          (Claim.traced rest)).or
      ((trie.params.findSome? fun entry =>
        ((select trailing (rest.map Piece.text) entry.2).map
          (Claim.traced rest)).map fun found =>
            (found.1, (entry.1, piece.text) :: found.2)).or
      (trie.wildcards.head?.toList.findSome? fun entry =>
        some (entry.2, [(entry.1, piece.rest)]))) := by
  rw [List.map_cons, select, Option.map_or, Option.map_or, List.map_findSome?]
  congr 1
  · cases trie.literals.lookup piece.text with
    | none => rfl
    | some child =>
        rw [Option.bind_some, Option.map_map, Option.toList_some,
          List.findSome?_singleton]
        rfl
  · congr 1
    · congr 1
      funext entry
      rw [Function.comp_apply, Option.map_map, Option.map_map]
      rfl
    · cases trie.wildcards.head? <;> rfl

theorem find_leaves (trailing decode : Bool) (pieces : List Piece)
    (trie : Trie) :
    (find trailing decode pieces trie).Leaves decode
      ((select trailing (pieces.map Piece.text) trie).map
        (Claim.traced pieces)) := by
  induction pieces generalizing trie with
  | nil =>
      simp only [find, select, List.map_nil]
      split_ifs with hanchored
      · rw [Option.map_map]
        exact Search.leaves_ofOption trie.anchored decode
      · rw [Option.map_map]
        exact Search.leaves_ofOption trie.route decode
  | cons piece rest ih =>
      have hliteral := Search.leaves_firstOf_map
        (trie.literals.lookup piece.text).toList fun child _ => ih child
      have hparam := Search.leaves_firstOf_map trie.params fun entry _ =>
        (ih entry.2).capturing entry.1 piece.text
      have hwildcard := Search.leaves_firstOf_map trie.wildcards.head?.toList
        fun entry _ => (Search.leaves_ofOption (some entry.2) decode).capturing
          entry.1 piece.rest
      have hfind := hliteral.orElse (hparam.orElse hwildcard)
      rw [← Search.firstOf_append, ← Search.firstOf_append,
        ← List.append_assoc] at hfind
      rw [select_cons_traced]
      exact hfind

end Trie

theorem MethodRoutes.find_leaves (routes : MethodRoutes) (path : Path)
    (decode : Bool) :
    (routes.find path decode).Leaves decode
      ((routes.select path).map (Trie.Claim.traced path.pieces)) := by
  unfold find select
  cases routes.literals.lookup path.text with
  | some id =>
      have hslot : capturedFrom path.slot path.pieces = [] := by
        unfold Path.slot
        split_ifs
        · rfl
        · exact capturedFrom_literalSlot _ _ _
      have hfound : (some (⟨path.slot, id⟩ : Trie.Claim)).map
          (Trie.Claim.traced path.pieces) = some (id, []) := by
        rw [Option.map_some, Trie.Claim.traced, hslot]
      dsimp only
      rw [hfound]
      exact Search.leaves_ofOption (some id) decode
  | none => exact Trie.find_leaves path.Trailing decode path.pieces routes.root

end Dispatch
