import Dispatch.Proofs.Trie.Selection
import Mathlib.Tactic

/-!
# Which of several matching claims is selected

Claims are compared at the first segment in which they differ.  A literal comes
before a parameter and a parameter before a wildcard.  Two parameters, or two
wildcards, with different names come in the order in which their names first
came below the same segments.  A slot with an end anchor comes before the same
slot without.

The search selects the least claim that takes the path.  The induction is on
the pieces: the children of a node are tried in exactly this order, and a child
that holds a claim which takes the rest of the path does not fail.
-/

namespace Dispatch
namespace Trie

/-- A claim that begins with the first segment comes before any claim that
begins with the second. -/
def FirstUnder (first second : Segment) (claims : List Claim) : Prop :=
  ∃ earlier later, claims = earlier ++ later ∧
    under first earlier ≠ [] ∧ under second earlier = []

theorem FirstUnder.append {first second : Segment} {claims : List Claim}
    (horder : FirstUnder first second claims) (more : List Claim) :
    FirstUnder first second (claims ++ more) := by
  obtain ⟨earlier, later, rfl, hfirst, hsecond⟩ := horder
  exact ⟨earlier, later ++ more, List.append_assoc .., hfirst, hsecond⟩

inductive Precedes : List Claim → List Segment → List Segment → Prop where
  | literalParam {claims : List Claim} {text name : String}
      {left right : List Segment} :
      Precedes claims (.literal text :: left) (.param name :: right)
  | literalWildcard {claims : List Claim} {text name : String}
      {left right : List Segment} :
      Precedes claims (.literal text :: left) (.wildcard name :: right)
  | paramWildcard {claims : List Claim} {first second : String}
      {left right : List Segment} :
      Precedes claims (.param first :: left) (.wildcard second :: right)
  | params {claims : List Claim} {first second : String}
      {left right : List Segment}
      (horder : FirstUnder (.param first) (.param second) claims) :
      Precedes claims (.param first :: left) (.param second :: right)
  | wildcards {claims : List Claim} {first second : String}
      {left right : List Segment}
      (horder : FirstUnder (.wildcard first) (.wildcard second) claims) :
      Precedes claims (.wildcard first :: left) (.wildcard second :: right)
  | endAnchor {claims : List Claim} : Precedes claims [.endAnchor] []
  | descend {claims : List Claim} {segment : Segment}
      {left right : List Segment}
      (hrest : Precedes (under segment claims) left right) :
      Precedes claims (segment :: left) (segment :: right)

/-! ## The order of the children -/

/-- Some keys of a node stand in the order in which claims first used them. -/
def InOrder (segment : String → Segment) (keys : List String)
    (claims : List Claim) : Prop :=
  ∀ before first after, keys = before ++ first :: after →
    ∀ second, second ∉ before → second ≠ first →
      FirstUnder (segment first) (segment second) claims

section

variable {segment : String → Segment} {keys : List String}
  {claims : List Claim}

theorem InOrder.concat (horder : InOrder segment keys claims) (claim : Claim) :
    InOrder segment keys (claims ++ [claim]) := by
  intro before first after hkeys second hbefore hne
  exact (horder before first after hkeys second hbefore hne).append [claim]

theorem InOrder.concat_new (horder : InOrder segment keys claims)
    (hinjective : Function.Injective segment)
    (hunused : ∀ name, name ∉ keys → under (segment name) claims = [])
    (name : String) (rest : List Segment) (id : RouteId) :
    InOrder segment (keys ++ [name]) (claims ++ [⟨segment name :: rest, id⟩]) := by
  intro before first after hkeys second hbefore hne
  rcases List.eq_nil_or_concat after with rfl | ⟨others, last, rfl⟩
  · obtain ⟨rfl, hlast⟩ := List.append_inj' hkeys rfl
    obtain rfl : name = first := by simpa using hlast
    refine ⟨_, [], (List.append_nil _).symm, ?_, ?_⟩
    · simp [under_append, under_singleton_cons]
    · have hsegment : segment name ≠ segment second :=
        fun h => hne (hinjective h).symm
      simp [under_append, under_singleton_cons, hunused second hbefore,
        hsegment]
  · have hkeys : keys = before ++ first :: others := by
      rw [List.concat_eq_append, ← List.cons_append,
        ← List.append_assoc] at hkeys
      exact List.append_inj_left' hkeys rfl
    exact (horder before first others hkeys second hbefore hne).append _

end

theorem under_eq_nil_of_not_mem_params {claims : List Claim} {name : String}
    (hname : name ∉ (ofClaims claims).params.map Prod.fst) :
    under (.param name) claims = [] := by
  have hlookup := KeyedList.lookup_eq_none hname
  rw [lookup_params_ofClaims] at hlookup
  by_contra hne
  obtain ⟨claim, hmem⟩ := List.exists_mem_of_ne_nil _ hne
  rw [child?_eq_some_of_mem hmem] at hlookup
  contradiction

theorem params_inOrder (claims : List Claim) :
    InOrder .param ((ofClaims claims).params.map Prod.fst) claims := by
  induction claims using List.reverseRecOn with
  | nil =>
      intro before first after hkeys
      simp [ofClaims, empty] at hkeys
  | append_singleton claims claim ih =>
      obtain ⟨segments, id⟩ := claim
      rw [ofClaims_concat]
      cases segments with
      | nil => exact ih.concat _
      | cons head rest =>
          cases head with
          | param name =>
              simp only [insert, KeyedList.keys_update]
              split_ifs with hname
              · exact ih.concat _
              · exact ih.concat_new (fun _ _ => Segment.param.inj)
                  (fun _ => under_eq_nil_of_not_mem_params) name rest id
          | literal text => exact ih.concat _
          | wildcard name => exact ih.concat _
          | endAnchor => exact ih.concat _

theorem under_eq_nil_of_not_mem_wildcards {claims : List Claim} {name : String}
    (hname : name ∉ (ofClaims claims).wildcards.map Prod.fst) :
    under (.wildcard name) claims = [] := by
  have hlookup := KeyedList.lookup_eq_none hname
  rw [lookup_wildcards_ofClaims, Option.map_eq_none_iff] at hlookup
  exact List.head?_eq_none_iff.mp hlookup

theorem wildcards_inOrder (claims : List Claim) :
    InOrder .wildcard ((ofClaims claims).wildcards.map Prod.fst) claims := by
  induction claims using List.reverseRecOn with
  | nil =>
      intro before first after hkeys
      simp [ofClaims, empty] at hkeys
  | append_singleton claims claim ih =>
      obtain ⟨segments, id⟩ := claim
      rw [ofClaims_concat]
      cases segments with
      | nil => exact ih.concat _
      | cons head rest =>
          cases head with
          | wildcard name =>
              simp only [insert, KeyedList.keys_claim]
              split_ifs with hname
              · exact ih.concat _
              · exact ih.concat_new (fun _ _ => Segment.wildcard.inj)
                  (fun _ => under_eq_nil_of_not_mem_wildcards) name rest id
          | literal text => exact ih.concat _
          | param name => exact ih.concat _
          | endAnchor => exact ih.concat _

/-! ## The selected claim is the least -/

section

variable {trailing : Bool} {piece : String} {pieces : List String}
  {claims : List Claim} {claim winner : Claim}

theorem select_least_nil
    (hplaced : ∀ claim ∈ claims, WellPlaced claim.segments)
    (hmem : claim ∈ claims) (htakes : Takes trailing claim.segments []) :
    ∃ winner, select trailing [] (ofClaims claims) = some winner ∧
      (winner.segments = claim.segments ∨
        Precedes claims winner.segments claim.segments) := by
  have hfirst := firstClaim?_isSome hmem
  rw [select_nil_ofClaims hplaced]
  by_cases hanchored :
      (trailing && (firstClaim? [.endAnchor] claims).isSome) = true
  · rw [if_pos hanchored]
    obtain ⟨id, hid⟩ :=
      Option.isSome_iff_exists.mp (Bool.and_eq_true_iff.mp hanchored).2
    refine ⟨⟨[.endAnchor], id⟩, by rw [hid]; rfl, ?_⟩
    rcases takes_nil_pieces_iff.mp htakes with hnil | ⟨hend, _⟩
    · rw [hnil]
      exact Or.inr .endAnchor
    · exact Or.inl hend.symm
  · rw [if_neg hanchored]
    rcases takes_nil_pieces_iff.mp htakes with hnil | ⟨hend, htrailing⟩
    · rw [hnil] at hfirst ⊢
      obtain ⟨id, hid⟩ := Option.isSome_iff_exists.mp hfirst
      exact ⟨⟨[], id⟩, by rw [hid]; rfl, Or.inl rfl⟩
    · rw [hend] at hfirst
      exact (hanchored (by rw [htrailing, hfirst]; rfl)).elim

/-- If the parameter child of some name does not fail, the parameter children
select something below that name or below one that came before it. -/
theorem selectParam_least {name : String}
    (hselect : select trailing pieces (ofClaims (under (.param name) claims)) =
      some claim) :
    ∃ first found,
      selectParam trailing pieces claims = some (found.below (.param first)) ∧
      (first = name ∧ found = claim ∨
        FirstUnder (.param first) (.param name) claims) := by
  have hname : name ∈ (ofClaims claims).params.map Prod.fst := by
    by_contra hunused
    rw [under_eq_nil_of_not_mem_params hunused, ofClaims_nil,
      select_empty] at hselect
    contradiction
  have hsome : (selectParam trailing pieces claims).isSome := by
    unfold selectParam
    rw [List.findSome?_isSome_iff]
    exact ⟨name, hname, by simp [hselect]⟩
  obtain ⟨found, hfound⟩ := Option.isSome_iff_exists.mp hsome
  obtain ⟨before, first, after, hkeys, hfirst, hbefore⟩ :=
    List.findSome?_eq_some_iff.mp hfound
  obtain ⟨below, hbelow, rfl⟩ := Option.map_eq_some_iff.mp hfirst
  refine ⟨first, below, hfound, ?_⟩
  by_cases heq : first = name
  · subst first
    exact Or.inl ⟨rfl, Option.some.inj (hbelow.symm.trans hselect)⟩
  · have hnotBefore : name ∉ before := by
      intro hmem
      have hnone := hbefore name hmem
      rw [hselect] at hnone
      contradiction
    exact Or.inr (params_inOrder claims before first after hkeys name
      hnotBefore (Ne.symm heq))

/-- The wildcard that is tried is that of any given claim, or came before. -/
theorem selectWildcard_least {name : String} {id : RouteId}
    (hmem : ⟨[.wildcard name], id⟩ ∈ claims) :
    ∃ first found, selectWildcard claims = some ⟨[.wildcard first], found⟩ ∧
      (first = name ∨
        FirstUnder (.wildcard first) (.wildcard name) claims) := by
  unfold selectWildcard
  cases hwildcards : (ofClaims claims).wildcards with
  | nil =>
      have hunused : under (.wildcard name) claims = [] :=
        under_eq_nil_of_not_mem_wildcards (by simp [hwildcards])
      have hunder : ⟨[], id⟩ ∈ under (.wildcard name) claims :=
        mem_under.mpr hmem
      rw [hunused] at hunder
      contradiction
  | cons entry rest =>
      obtain ⟨first, found⟩ := entry
      refine ⟨first, found, rfl, ?_⟩
      by_cases heq : first = name
      · exact Or.inl heq
      · have hkeys : (ofClaims claims).wildcards.map Prod.fst =
            [] ++ first :: rest.map Prod.fst := by simp [hwildcards]
        exact Or.inr (wildcards_inOrder claims [] first _ hkeys name
          List.not_mem_nil (Ne.symm heq))

/-- If a claim takes the path, the search does not fail, and it selects that
claim's slot or one that precedes it. -/
theorem select_least (hplaced : ∀ claim ∈ claims, WellPlaced claim.segments)
    (hmem : claim ∈ claims) (htakes : Takes trailing claim.segments pieces) :
    ∃ winner, select trailing pieces (ofClaims claims) = some winner ∧
      (winner.segments = claim.segments ∨
        Precedes claims winner.segments claim.segments) := by
  induction pieces generalizing claims claim with
  | nil => exact select_least_nil hplaced hmem htakes
  | cons piece rest ih =>
      obtain ⟨segments, id⟩ := claim
      rw [select_cons_ofClaims]
      cases segments with
      | nil => simp at htakes
      | cons segment tail =>
          have hunder : ⟨tail, id⟩ ∈ under segment claims := mem_under.mpr hmem
          have hbelow := ih (under_wellPlaced hplaced) hunder
          have hdescend : ∀ winner : Claim,
              winner.segments = tail ∨
                Precedes (under segment claims) winner.segments tail →
              (winner.below segment).segments = segment :: tail ∨
                Precedes claims (winner.below segment).segments
                  (segment :: tail) := by
            rintro winner (hsame | hbefore)
            · exact Or.inl (congrArg (List.cons segment) hsame)
            · exact Or.inr (.descend hbefore)
          -- a claim is beaten only by children that are tried before its own
          cases segment with
          | literal text =>
              obtain ⟨_, heq, htail⟩ := takes_literal_iff.mp htakes
              obtain ⟨rfl, rfl⟩ := List.cons.inj heq
              obtain ⟨winner, hwinner, hleast⟩ := hbelow htail
              rw [hwinner]
              exact ⟨_, rfl, hdescend winner hleast⟩
          | param name =>
              obtain ⟨_, _, heq, htail⟩ := takes_param_iff.mp htakes
              obtain ⟨_, rfl⟩ := List.cons.inj heq
              cases select trailing rest
                  (ofClaims (under (.literal piece) claims)) with
              | some found =>
                  exact ⟨_, rfl, Or.inr .literalParam⟩
              | none =>
                  obtain ⟨below, hselect, hleast⟩ := hbelow htail
                  obtain ⟨first, found, hparams, hfirst⟩ :=
                    selectParam_least hselect
                  rw [hparams]
                  refine ⟨_, rfl, ?_⟩
                  rcases hfirst with ⟨rfl, rfl⟩ | horder
                  · exact hdescend found hleast
                  · exact Or.inr (.params horder)
          | wildcard name =>
              obtain ⟨rfl, _⟩ := takes_wildcard_iff.mp htakes
              cases select trailing rest
                  (ofClaims (under (.literal piece) claims)) with
              | some found =>
                  exact ⟨_, rfl, Or.inr .literalWildcard⟩
              | none =>
                  cases hparams : selectParam trailing rest claims with
                  | some found =>
                      obtain ⟨first, below, rfl, _⟩ :=
                        exists_of_selectParam hparams
                      exact ⟨_, rfl, Or.inr .paramWildcard⟩
                  | none =>
                      obtain ⟨first, found, hwildcard, hfirst⟩ :=
                        selectWildcard_least hmem
                      rw [hwildcard]
                      refine ⟨_, rfl, ?_⟩
                      rcases hfirst with rfl | horder
                      · exact Or.inl rfl
                      · exact Or.inr (.wildcards horder)
          | endAnchor => simp at htakes

end

end Trie
end Dispatch
