import Dispatch.Proofs.RouteTable.Strict
import Mathlib.Tactic

/-!
# What two conflicting patterns share

Two segments that are not disjoint take a common piece, and a path that ends in
a slash suits end anchors without hurting the rest.  So two patterns that are
not disjoint share a request that is put together from common pieces.

One pair of segments is an exception.  The verdict takes a wildcard for more
general than an end anchor, but the wildcard asks for a piece where the anchor
allows none.  Such a verdict turns into a conflict as soon as the patterns also
differ elsewhere.
-/

namespace Dispatch

/-! ## Segments with an end anchor -/

/-- Segments that each take one piece, up to a wildcard or an end anchor. -/
inductive SpelledPath : List Segment → Prop where
  | nil : SpelledPath []
  | wildcard (name : String) : SpelledPath [.wildcard name]
  | endAnchor : SpelledPath [.endAnchor]
  | cons {segment : Segment} {rest : List Segment} (hone : segment.TakesOne)
      (hrest : SpelledPath rest) : SpelledPath (segment :: rest)

theorem WellPlaced.spelledPath {segments : List Segment}
    (hplaced : WellPlaced segments)
    (hspelled : ∀ text, .literal text ∈ segments → '?' ∉ text.toList) :
    SpelledPath segments := by
  induction segments with
  | nil => exact .nil
  | cons segment rest ih =>
      have hrest : SpelledPath rest := ih hplaced.tail fun text hmem =>
        hspelled text (List.mem_cons_of_mem _ hmem)
      cases segment with
      | literal text =>
          have hquery := hspelled text List.mem_cons_self
          exact .cons ⟨hplaced.1 text rfl, hquery⟩ hrest
      | param name => exact .cons trivial hrest
      | wildcard name =>
          obtain rfl := hplaced.2.1 trivial
          exact .wildcard name
      | endAnchor =>
          obtain rfl := hplaced.2.1 trivial
          exact .endAnchor

/-- What the segments take of paths that end in a slash. -/
def piecesTakenSlash (segments : List Segment) : Set (List String) :=
  {pieces | (∀ piece ∈ pieces, IsRequestPiece piece) ∧
    Takes True segments pieces}

section

variable {segment : Segment} {rest left right : List Segment}
  {pieces : List String}

theorem cons_mem_piecesTakenSlash {piece : String} (hone : segment.TakesOne)
    (hpiece : piece ∈ segment.taken) (hpieces : pieces ∈ piecesTakenSlash rest) :
    piece :: pieces ∈ piecesTakenSlash (segment :: rest) := by
  refine ⟨List.forall_mem_cons.mpr
    ⟨Segment.taken_subset hone piece hpiece, hpieces.1⟩, ?_⟩
  cases segment with
  | literal text =>
      obtain rfl : piece = text := hpiece
      exact .literal hpieces.2
  | param name => exact .param hpieces.2
  | wildcard name => exact hone.elim
  | endAnchor => exact hone.elim

theorem singleton_mem_wildcard (name : String) :
    ["a"] ∈ piecesTakenSlash [.wildcard name] := by
  refine ⟨?_, .wildcard (List.cons_ne_nil _ _)⟩
  simpa using isRequestPiece_a

theorem nil_mem_endAnchor : [] ∈ piecesTakenSlash [.endAnchor] :=
  ⟨by simp, .endAnchor trivial⟩

theorem SpelledPath.piecesTakenSlash_nonempty (hspelled : SpelledPath left) :
    (piecesTakenSlash left).Nonempty := by
  induction hspelled with
  | nil => exact ⟨[], by simp, .done⟩
  | wildcard name => exact ⟨_, singleton_mem_wildcard name⟩
  | endAnchor => exact ⟨_, nil_mem_endAnchor⟩
  | cons hone hrest ih =>
      obtain ⟨piece, hpiece⟩ := Segment.taken_nonempty hone
      obtain ⟨pieces, hpieces⟩ := ih
      exact ⟨_, cons_mem_piecesTakenSlash hone hpiece hpieces⟩

/-- A wildcard takes what any list takes that begins with a piece. -/
theorem wildcard_inter_cons_nonempty (hone : segment.TakesOne)
    (hrest : SpelledPath rest) (name : String) :
    (piecesTakenSlash [.wildcard name] ∩
      piecesTakenSlash (segment :: rest)).Nonempty := by
  obtain ⟨piece, hpiece⟩ := Segment.taken_nonempty hone
  obtain ⟨pieces, hpieces⟩ := hrest.piecesTakenSlash_nonempty
  have hcons := cons_mem_piecesTakenSlash hone hpiece hpieces
  exact ⟨piece :: pieces,
    ⟨hcons.1, .wildcard (List.cons_ne_nil _ _)⟩, hcons⟩

/-! ## An end anchor where the other side has its wildcard -/

/-- Both lists end at the same position, one with an end anchor and the other
with a wildcard. -/
def AnchorAtWildcard (anchored wild : List Segment) : Prop :=
  ∃ before after name, anchored = before ++ [.endAnchor] ∧
    wild = after ++ [.wildcard name] ∧ before.length = after.length

theorem AnchorAtWildcard.cons (hmeets : AnchorAtWildcard left right)
    (first second : Segment) :
    AnchorAtWildcard (first :: left) (second :: right) := by
  obtain ⟨before, after, name, rfl, rfl, hlength⟩ := hmeets
  exact ⟨first :: before, second :: after, name, rfl, rfl,
    congrArg Nat.succ hlength⟩

theorem anchorAtWildcard_last (name : String) :
    AnchorAtWildcard [.endAnchor] [.wildcard name] :=
  ⟨[], [], name, rfl, rfl, rfl⟩

/-- Only the last segment can take more or less than one piece. -/
theorem Takes.exists_tail {trailing : Prop}
    (htakes : Takes trailing (segment :: rest) pieces) (hrest : rest ≠ []) :
    ∃ piece tail, pieces = piece :: tail ∧ Takes trailing rest tail := by
  cases htakes with
  | literal htail => exact ⟨_, _, rfl, htail⟩
  | param htail => exact ⟨_, _, rfl, htail⟩
  | wildcard _ => contradiction
  | endAnchor _ => contradiction

theorem Takes.length_endAnchor {trailing : Prop} {before : List Segment}
    (htakes : Takes trailing (before ++ [.endAnchor]) pieces) :
    pieces.length = before.length := by
  induction before generalizing pieces with
  | nil =>
      rw [List.nil_append, takes_endAnchor_iff] at htakes
      rw [htakes.2.1]
      rfl
  | cons segment before ih =>
      obtain ⟨piece, tail, rfl, htail⟩ := htakes.exists_tail (by simp)
      exact congrArg Nat.succ (ih htail)

theorem Takes.length_wildcard {trailing : Prop} {after : List Segment}
    {name : String} (htakes : Takes trailing (after ++ [.wildcard name]) pieces) :
    after.length < pieces.length := by
  induction after generalizing pieces with
  | nil =>
      rw [List.nil_append, takes_wildcard_iff] at htakes
      exact List.length_pos_of_ne_nil htakes.2
  | cons segment after ih =>
      obtain ⟨piece, tail, rfl, htail⟩ := htakes.exists_tail (by simp)
      exact Nat.succ_lt_succ (ih htail)

/-- The wildcard asks for one piece more. -/
theorem AnchorAtWildcard.not_takes {trailing : Prop}
    (hmeets : AnchorAtWildcard left right) (hleft : Takes trailing left pieces) :
    ¬Takes trailing right pieces := by
  obtain ⟨before, after, name, rfl, rfl, hlength⟩ := hmeets
  intro hright
  have hanchored := hleft.length_endAnchor
  have hwild := hright.length_wildcard
  omega

end

/-! ## Common pieces -/

namespace Specificity

theorem combine_ne_disjoint {first second : Specificity}
    (hcombined : first.combine second ≠ .disjoint) :
    first ≠ .disjoint ∧ second ≠ .disjoint := by
  constructor
  · rintro rfl
    exact hcombined (disjoint_combine second)
  · rintro rfl
    exact hcombined (combine_disjoint first)

theorem Holds.inter_nonempty {ρ : Type} {A B : Set ρ} {verdict : Specificity}
    (hholds : verdict.Holds A B) (hA : A.Nonempty) (hB : B.Nonempty)
    (hverdict : verdict ≠ .disjoint) : (A ∩ B).Nonempty := by
  rw [(hholds.answers hA hB).shared]
  simpa [shares] using hverdict

theorem ofPaths_cons_nil (segment : Segment) (rest : List Segment) :
    ofPaths (segment :: rest) [] = .disjoint := by
  rw [← inverse_ofPaths, ofPaths_nil_cons]
  rfl

theorem ofPaths_endAnchor_cons {segment : Segment} (hone : segment.TakesOne)
    (rest : List Segment) :
    ofPaths [.endAnchor] (segment :: rest) = .disjoint := by
  have hanchor : ¬Segment.endAnchor.IsWildcard := by
    rintro ⟨name, hname⟩
    contradiction
  rw [ofPaths_cons hanchor hone.not_isWildcard]
  cases segment with
  | literal text => exact disjoint_combine _
  | param name => exact disjoint_combine _
  | wildcard name => exact hone.elim
  | endAnchor => exact hone.elim

theorem ofPaths_cons_endAnchor {segment : Segment} (hone : segment.TakesOne)
    (rest : List Segment) :
    ofPaths (segment :: rest) [.endAnchor] = .disjoint := by
  rw [← inverse_ofPaths, ofPaths_endAnchor_cons hone]
  rfl

/-- Two paths that are not disjoint have common pieces, but for an anchor at a
wildcard. -/
theorem piecesTakenSlash_inter_nonempty {left right : List Segment}
    (hleft : SpelledPath left) (hright : SpelledPath right)
    (hverdict : ofPaths left right ≠ .disjoint)
    (hanchor : ¬AnchorAtWildcard left right)
    (hwildcard : ¬AnchorAtWildcard right left) :
    (piecesTakenSlash left ∩ piecesTakenSlash right).Nonempty := by
  induction hleft generalizing right with
  | nil =>
      cases right with
      | nil => exact ⟨[], ⟨by simp, .done⟩, by simp, .done⟩
      | cons segment rest => exact (hverdict (ofPaths_nil_cons _ _)).elim
  | wildcard name =>
      cases hright with
      | nil => exact (hverdict (ofPaths_cons_nil _ _)).elim
      | wildcard other =>
          exact ⟨_, singleton_mem_wildcard name, singleton_mem_wildcard other⟩
      | endAnchor => exact (hwildcard (anchorAtWildcard_last name)).elim
      | cons hone hrest => exact wildcard_inter_cons_nonempty hone hrest name
  | endAnchor =>
      cases hright with
      | nil => exact (hverdict (ofPaths_cons_nil _ _)).elim
      | wildcard name => exact (hanchor (anchorAtWildcard_last name)).elim
      | endAnchor => exact ⟨_, nil_mem_endAnchor, nil_mem_endAnchor⟩
      | cons hone hrest =>
          exact (hverdict (ofPaths_endAnchor_cons hone _)).elim
  | @cons segment rest hone hrest ih =>
      cases hright with
      | nil => exact (hverdict (ofPaths_cons_nil _ _)).elim
      | wildcard name =>
          rw [Set.inter_comm]
          exact wildcard_inter_cons_nonempty hone hrest name
      | endAnchor => exact (hverdict (ofPaths_cons_endAnchor hone _)).elim
      | @cons other others hother hothers =>
          rw [ofPaths_cons hone.not_isWildcard hother.not_isWildcard]
            at hverdict
          -- the piece is common to the first segments, the rest by induction
          obtain ⟨hfirst, htail⟩ := combine_ne_disjoint hverdict
          obtain ⟨piece, hpiece, hpiece'⟩ :=
            (ofSegments_holds hone hother).inter_nonempty
              (Segment.taken_nonempty hone) (Segment.taken_nonempty hother)
              hfirst
          obtain ⟨pieces, hpieces, hpieces'⟩ := ih hothers htail
            (fun hmeets => hanchor (hmeets.cons segment other))
            (fun hmeets => hwildcard (hmeets.cons other segment))
          exact ⟨piece :: pieces,
            cons_mem_piecesTakenSlash hone hpiece hpieces,
            cons_mem_piecesTakenSlash hother hpiece' hpieces'⟩

end Specificity

/-! ## Common requests -/

namespace Pattern

/-- No literal holds a question mark, so requests can spell them all. -/
def Spelled (pattern : Pattern) : Prop :=
  ∀ text, .literal text ∈ pattern.segments → '?' ∉ text.toList

/-- The end anchor of one pattern stands where the other has its wildcard. -/
def AnchorMeetsWildcard (a b : Pattern) : Prop :=
  AnchorAtWildcard a.segments b.segments ∨
    AnchorAtWildcard b.segments a.segments

section

variable {a b : Pattern}

theorem accepts_ofPiecesSlash {pieces : List String}
    (htaken : pieces ∈ piecesTakenSlash a.segments) :
    a.Accepts (Target.ofPiecesSlash pieces) := by
  obtain ⟨hpieces, htakes⟩ := htaken
  have htrailing := Target.trailing_ofPiecesSlash fun piece hmem =>
    (hpieces piece hmem).2
  unfold Accepts
  rw [Target.pieces_ofPiecesSlash hpieces, eq_true htrailing]
  exact htakes

theorem AnchorMeetsWildcard.requests_inter (ha : a.Compiled) (hb : b.Compiled)
    (hmeets : a.AnchorMeetsWildcard b) : a.requests ∩ b.requests = ∅ := by
  rw [Set.eq_empty_iff_forall_notMem]
  rintro ⟨method, target⟩ ⟨hleft, hright⟩
  have haccepts := ((mem_requests_iff ha).mp hleft).2
  have hother := ((mem_requests_iff hb).mp hright).2
  rcases hmeets with hmeets | hmeets
  · exact hmeets.not_takes haccepts hother
  · exact hmeets.not_takes hother haccepts

theorem requests_inter_nonempty (ha : a.Compiled) (hb : b.Compiled)
    (haspelled : a.Spelled) (hbspelled : b.Spelled)
    (hverdict : a.compareTo b ≠ .disjoint)
    (hapart : ¬a.AnchorMeetsWildcard b) :
    (a.requests ∩ b.requests).Nonempty := by
  obtain ⟨hmethods, hpaths⟩ := Specificity.combine_ne_disjoint hverdict
  obtain ⟨method, hmethod, hmethod'⟩ :=
    (Specificity.ofMethods_holds a.method b.method).inter_nonempty
      (methodsAnswered_nonempty a.method) (methodsAnswered_nonempty b.method)
      hmethods
  obtain ⟨pieces, hpieces, hpieces'⟩ :=
    Specificity.piecesTakenSlash_inter_nonempty
      (ha.wellPlaced.spelledPath haspelled)
      (hb.wellPlaced.spelledPath hbspelled) hpaths
      (fun hmeets => hapart (Or.inl hmeets))
      (fun hmeets => hapart (Or.inr hmeets))
  exact ⟨(method, Target.ofPiecesSlash pieces),
    (mem_requests_iff ha).mpr ⟨hmethod, accepts_ofPiecesSlash hpieces⟩,
    (mem_requests_iff hb).mpr ⟨hmethod', accepts_ofPiecesSlash hpieces'⟩⟩

/-- Two patterns that conflict share a request, exactly if neither has its end
anchor where the other has its wildcard. -/
theorem requests_meet_iff_of_conflicts (ha : a.Compiled) (hb : b.Compiled)
    (haspelled : a.Spelled) (hbspelled : b.Spelled)
    (hconflicts : a.Conflicts b) :
    (a.requests ∩ b.requests).Nonempty ↔ ¬a.AnchorMeetsWildcard b := by
  constructor
  · intro hshared hmeets
    rw [hmeets.requests_inter ha hb] at hshared
    exact Set.not_nonempty_empty hshared
  · intro hapart
    have hverdict : a.compareTo b ≠ .disjoint := by
      rcases hconflicts with hverdict | hverdict <;> simp [hverdict]
    exact requests_inter_nonempty ha hb haspelled hbspelled hverdict hapart

end

def anchoredName : Pattern :=
  ⟨"/:x/{$}", some .get, [.param "x", .endAnchor]⟩

def anchoredA : Pattern :=
  ⟨"/a/{$}", none, [.literal "a", .endAnchor]⟩

def wildA : Pattern :=
  ⟨"/a/*", some .get, [.literal "a", .wildcard "*"]⟩

theorem anchoredName_compiled : anchoredName.Compiled :=
  ⟨"/:x/{$}", some .get, by decide⟩

theorem anchoredName_spelled : anchoredName.Spelled := by
  intro text hmem
  simp [anchoredName] at hmem

theorem requests_meet_iff_of_conflicts_anchoredName :
    (anchoredName.Compiled ∧ anchoredA.Compiled ∧ anchoredName.Spelled ∧
      anchoredA.Spelled ∧ anchoredName.Conflicts anchoredA) ∧
      (anchoredName.requests ∩ anchoredA.requests).Nonempty := by
  have hother : anchoredA.Compiled := ⟨"/a/{$}", none, by decide⟩
  have hspelled : anchoredA.Spelled := by
    intro text hmem
    obtain rfl : text = "a" := by simpa [anchoredA] using hmem
    decide
  have hconflicts : anchoredName.Conflicts anchoredA := by decide
  have hapart : ¬anchoredName.AnchorMeetsWildcard anchoredA := by
    rintro (⟨_, after, name, _, hwild, _⟩ | ⟨_, after, name, _, hwild, _⟩)
    · have hlast := congrArg List.getLast? hwild
      simp [anchoredA] at hlast
    · have hlast := congrArg List.getLast? hwild
      simp [anchoredName] at hlast
  exact ⟨⟨anchoredName_compiled, hother, anchoredName_spelled, hspelled,
      hconflicts⟩,
    (requests_meet_iff_of_conflicts anchoredName_compiled hother
      anchoredName_spelled hspelled hconflicts).mpr hapart⟩

/-- The parameter is more general than the literal and the anchor passes for
more specific than the wildcard, but no request suits both patterns. -/
theorem conflicts_apart_wildA :
    anchoredName.Compiled ∧ wildA.Compiled ∧ anchoredName.Spelled ∧
      wildA.Spelled ∧ anchoredName.Conflicts wildA ∧
      anchoredName.requests ∩ wildA.requests = ∅ := by
  have hother : wildA.Compiled := ⟨"/a/*", some .get, by decide⟩
  have hspelled : wildA.Spelled := by
    intro text hmem
    obtain rfl : text = "a" := by simpa [wildA] using hmem
    decide
  have hmeets : anchoredName.AnchorMeetsWildcard wildA :=
    Or.inl ((anchorAtWildcard_last "*").cons (.param "x") (.literal "a"))
  exact ⟨anchoredName_compiled, hother, anchoredName_spelled, hspelled,
    by decide, hmeets.requests_inter anchoredName_compiled hother⟩

end Pattern
end Dispatch
