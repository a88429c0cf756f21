import Dispatch.Proofs.Trie.Claims
import Mathlib.Tactic

/-!
# What a trie search selects

`Trie.select` is the search without its captures: it names the route that is
found and the slot it is found in.  The search finds that route from whatever
captures it starts, so the rest of the theory never mentions captures.

A selected claim is the first one on its slot and takes the path.
-/

namespace Dispatch
namespace Trie

namespace Claim

/-- The same claim, seen from the parent node. -/
def below (segment : Segment) (claim : Claim) : Claim :=
  { claim with segments := segment :: claim.segments }

@[simp] theorem below_id (segment : Segment) (claim : Claim) :
    (claim.below segment).id = claim.id := rfl

@[simp] theorem below_segments (segment : Segment) (claim : Claim) :
    (claim.below segment).segments = segment :: claim.segments := rfl

end Claim

def select (trailing : Bool) : List String → Trie → Option Claim
  | [], trie =>
    if trailing && trie.anchored.isSome then
      trie.anchored.map fun id => ⟨[.endAnchor], id⟩
    else trie.route.map fun id => ⟨[], id⟩
  | piece :: rest, trie =>
    let literal := (trie.literals.lookup piece).bind fun child =>
      (select trailing rest child).map (.below (.literal piece))
    let param := trie.params.findSome? fun (name, child) =>
      (select trailing rest child).map (.below (.param name))
    let wildcard := trie.wildcards.head?.map fun (name, id) =>
      (⟨[.wildcard name], id⟩ : Claim)
    literal.or (param.or wildcard)

end Trie

/-! ## The search finds what is selected -/

namespace Search

/-- The search has this answer, whatever captures it starts from. -/
def Answers (search : Search) (answer : Option RouteId) : Prop :=
  ∀ captures, (search captures).1 = answer

theorem answers_ofOption (id : Option RouteId) : (ofOption id).Answers id :=
  fun _ => rfl

theorem Answers.orElse {first second : Search} {a b : Option RouteId}
    (hfirst : first.Answers a) (hsecond : second.Answers b) :
    (first.orElse second).Answers (a.or b) := by
  intro captures
  have hanswer := hfirst captures
  unfold Search.orElse
  cases hsearch : first captures with
  | mk id after =>
      rw [hsearch] at hanswer
      cases id with
      | none => simpa [← hanswer] using hsecond after
      | some id => simp [← hanswer]

theorem Answers.capturing {search : Search} {answer : Option RouteId}
    (hsearch : search.Answers answer) (name raw : String) (decode : Bool) :
    (Search.capturing name raw decode search).Answers answer := by
  intro captures
  have hanswer := hsearch (captures.capture name raw decode)
  unfold Search.capturing
  cases hfound : search (captures.capture name raw decode) with
  | mk id after =>
      rw [hfound] at hanswer
      cases id <;> simpa using hanswer

theorem orElse_assoc (first second third : Search) :
    (first.orElse second).orElse third = first.orElse (second.orElse third) := by
  funext captures
  unfold Search.orElse
  cases first captures with
  | mk id after => cases id <;> rfl

theorem firstOf_append (before after : List Search) :
    firstOf (before ++ after) = (firstOf before).orElse (firstOf after) := by
  induction before with
  | nil => rfl
  | cons search rest ih =>
      have hcons : ∀ searches : List Search,
          firstOf (search :: searches) = search.orElse (firstOf searches) :=
        fun _ => rfl
      rw [List.cons_append, hcons, hcons, ih, orElse_assoc]

/-- Searches that each answer for an element answer for the first element with
an answer. -/
theorem answers_firstOf_map {α : Type} (list : List α) {search : α → Search}
    {answer : α → Option RouteId}
    (hanswers : ∀ a ∈ list, (search a).Answers (answer a)) :
    (firstOf (list.map search)).Answers (list.findSome? answer) := by
  induction list with
  | nil => exact answers_ofOption none
  | cons a rest ih =>
      have hrest := ih fun b hmem => hanswers b (List.mem_cons_of_mem _ hmem)
      have hboth := (hanswers a List.mem_cons_self).orElse hrest
      have hfind : (a :: rest).findSome? answer =
          (answer a).or (rest.findSome? answer) := by
        rw [List.findSome?_cons]
        cases answer a <;> rfl
      rw [hfind]
      exact hboth

end Search

namespace Trie

theorem find_answers (trailing decode : Bool) (pieces : List Piece)
    (trie : Trie) :
    (find trailing decode pieces trie).Answers
      ((select trailing (pieces.map Piece.text) trie).map Claim.id) := by
  induction pieces generalizing trie with
  | nil =>
      simp only [find, select, List.map_nil]
      split_ifs with hanchored
      · simpa [Function.comp_def] using
          Search.answers_ofOption trie.anchored
      · simpa [Function.comp_def] using Search.answers_ofOption trie.route
  | cons piece rest ih =>
      have hliteral := Search.answers_firstOf_map
        (trie.literals.lookup piece.text).toList fun child _ => ih child
      have hparam := Search.answers_firstOf_map trie.params fun entry _ =>
        (ih entry.2).capturing entry.1 piece.text decode
      have hwildcard := Search.answers_firstOf_map trie.wildcards.head?.toList
        fun entry _ => (Search.answers_ofOption (some entry.2)).capturing
          entry.1 piece.rest decode
      have hfind := hliteral.orElse (hparam.orElse hwildcard)
      rw [← Search.firstOf_append, ← Search.firstOf_append,
        ← List.append_assoc] at hfind
      have hselected :
          (select trailing (List.map Piece.text (piece :: rest)) trie).map
              Claim.id =
            ((trie.literals.lookup piece.text).toList.findSome? fun child =>
              (select trailing (rest.map Piece.text) child).map Claim.id).or
            ((trie.params.findSome? fun entry =>
              (select trailing (rest.map Piece.text) entry.2).map Claim.id).or
            (trie.wildcards.head?.toList.findSome? fun entry =>
              some entry.2)) := by
        rw [List.map_cons, select, Option.map_or, Option.map_or,
          List.map_findSome?]
        congr 1
        · cases trie.literals.lookup piece.text with
          | none => rfl
          | some child => simp [Function.comp_def]
        · congr 1
          · simp [Function.comp_def]
          · cases trie.wildcards.head? <;> rfl
      rw [hselected]
      exact hfind

/-! ## What is selected among claims -/

section

variable {trailing : Bool} {piece : String} {pieces : List String}
  {claims : List Claim} {winner : Claim}

/-- A wildcard or an end anchor ends its claims, so the first claim below it is
the first one on its slot. -/
theorem firstClaim?_of_isFinal (segment : Segment) (hfinal : segment.IsFinal)
    (hplaced : ∀ claim ∈ claims, WellPlaced claim.segments) :
    firstClaim? [segment] claims =
      (under segment claims).head?.map Claim.id := by
  have hends : ∀ claim ∈ under segment claims, claim.segments = [] := by
    intro claim hmem
    exact (hplaced _ (mem_under.mp hmem)).2.1 hfinal
  rw [← firstClaim?_under]
  unfold firstClaim?
  cases hunder : under segment claims with
  | nil => rfl
  | cons claim rest =>
      have hclaim : claim.segments = [] := hends claim (by simp [hunder])
      simp [hclaim]

theorem select_nil_ofClaims
    (hplaced : ∀ claim ∈ claims, WellPlaced claim.segments) :
    select trailing [] (ofClaims claims) =
      if trailing && (firstClaim? [.endAnchor] claims).isSome then
        (firstClaim? [.endAnchor] claims).map fun id => ⟨[.endAnchor], id⟩
      else (firstClaim? [] claims).map fun id => ⟨[], id⟩ := by
  rw [select, anchored_ofClaims, route_ofClaims,
    firstClaim?_of_isFinal .endAnchor trivial hplaced]

theorem firstClaim?_of_head?_wildcards {name : String} {id : RouteId}
    (hplaced : ∀ claim ∈ claims, WellPlaced claim.segments)
    (hhead : (ofClaims claims).wildcards.head? = some (name, id)) :
    firstClaim? [.wildcard name] claims = some id := by
  rw [firstClaim?_of_isFinal (.wildcard name) trivial hplaced,
    ← lookup_wildcards_ofClaims]
  obtain ⟨rest, hwildcards⟩ := List.head?_eq_some_iff.mp hhead
  rw [hwildcards, List.lookup_cons_self]

theorem select_empty (trailing : Bool) (pieces : List String) :
    select trailing pieces empty = none := by
  cases pieces with
  | nil => simp [select, empty]
  | cons piece rest => simp [select, empty]

def selectParam (trailing : Bool) (pieces : List String)
    (claims : List Claim) : Option Claim :=
  ((ofClaims claims).params.map Prod.fst).findSome? fun name =>
    (select trailing pieces (ofClaims (under (.param name) claims))).map
      (Claim.below (.param name))

def selectWildcard (claims : List Claim) : Option Claim :=
  (ofClaims claims).wildcards.head?.map fun (name, id) =>
    ⟨[.wildcard name], id⟩

/-- The three kinds of children that are tried, in terms of the claims. -/
theorem select_cons_ofClaims (trailing : Bool) (piece : String)
    (pieces : List String) (claims : List Claim) :
    select trailing (piece :: pieces) (ofClaims claims) =
      ((select trailing pieces (ofClaims (under (.literal piece) claims))).map
        (Claim.below (.literal piece))).or
      ((selectParam trailing pieces claims).or (selectWildcard claims)) := by
  have hliteral :
      ((ofClaims claims).literals.lookup piece).bind (fun child =>
          (select trailing pieces child).map (Claim.below (.literal piece))) =
        (select trailing pieces (ofClaims (under (.literal piece) claims))).map
          (Claim.below (.literal piece)) := by
    rw [lookup_literals_ofClaims, child?]
    split_ifs with hnil
    · rw [hnil, ofClaims_nil, select_empty]
      rfl
    · rfl
  have hparam :
      ((ofClaims claims).params.findSome? fun (name, child) =>
          (select trailing pieces child).map (Claim.below (.param name))) =
        selectParam trailing pieces claims := by
    unfold selectParam
    rw [List.findSome?_map, ← List.head?_filterMap, ← List.head?_filterMap]
    congr 1
    refine List.filterMap_congr fun entry hmem => ?_
    simp [eq_ofClaims_of_mem_params hmem]
  rw [select, hliteral, hparam]
  rfl

theorem exists_of_selectParam
    (hselect : selectParam trailing pieces claims = some winner) :
    ∃ name claim, winner = claim.below (.param name) ∧
      select trailing pieces (ofClaims (under (.param name) claims)) =
        some claim := by
  obtain ⟨name, _, hbelow⟩ := List.exists_of_findSome?_eq_some hselect
  obtain ⟨claim, hclaim, rfl⟩ := Option.map_eq_some_iff.mp hbelow
  exact ⟨name, claim, rfl, hclaim⟩

theorem exists_of_selectWildcard
    (hselect : selectWildcard claims = some winner) :
    ∃ name id, winner = ⟨[.wildcard name], id⟩ ∧
      (ofClaims claims).wildcards.head? = some (name, id) := by
  obtain ⟨⟨name, id⟩, hhead, rfl⟩ := Option.map_eq_some_iff.mp hselect
  exact ⟨name, id, rfl, hhead⟩

/-- The selected route was the first to claim its slot, and the segments of the
slot take the path. -/
theorem select_sound (hplaced : ∀ claim ∈ claims, WellPlaced claim.segments)
    (hselect : select trailing pieces (ofClaims claims) = some winner) :
    firstClaim? winner.segments claims = some winner.id ∧
      Takes trailing winner.segments pieces := by
  induction pieces generalizing claims winner with
  | nil =>
      rw [select_nil_ofClaims hplaced] at hselect
      split_ifs at hselect with hanchored
      · obtain ⟨id, hid, rfl⟩ := Option.map_eq_some_iff.mp hselect
        simp only [Bool.and_eq_true] at hanchored
        exact ⟨hid, .endAnchor hanchored.1⟩
      · obtain ⟨id, hid, rfl⟩ := Option.map_eq_some_iff.mp hselect
        exact ⟨hid, .done⟩
  | cons piece rest ih =>
      rw [select_cons_ofClaims, Option.or_eq_some_iff,
        Option.or_eq_some_iff] at hselect
      rcases hselect with hliteral | ⟨_, hparam | ⟨_, hwildcard⟩⟩
      · obtain ⟨claim, hclaim, rfl⟩ := Option.map_eq_some_iff.mp hliteral
        obtain ⟨hfirst, htakes⟩ := ih (under_wellPlaced hplaced) hclaim
        rw [firstClaim?_under] at hfirst
        exact ⟨hfirst, .literal htakes⟩
      · obtain ⟨name, claim, rfl, hclaim⟩ := exists_of_selectParam hparam
        obtain ⟨hfirst, htakes⟩ := ih (under_wellPlaced hplaced) hclaim
        rw [firstClaim?_under] at hfirst
        exact ⟨hfirst, .param htakes⟩
      · obtain ⟨name, id, rfl, hhead⟩ := exists_of_selectWildcard hwildcard
        exact ⟨firstClaim?_of_head?_wildcards hplaced hhead,
          .wildcard (List.cons_ne_nil piece rest)⟩

end

end Trie
end Dispatch
