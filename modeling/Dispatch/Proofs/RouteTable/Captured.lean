import Dispatch.Proofs.RouteTable.Allowed
import Dispatch.Proofs.Trie.Captured
import Mathlib.Tactic

/-!
# What a lookup leaves in a store

What a pattern captures is read off its segments and the target alone: a
parameter names the piece at its place, and a wildcard the text from there on.
`Pattern.captured` says so without the search.

A lookup that finds a route has added just these to the store, and any other
lookup has added nothing, although the families before the one that answers
were searched first and a refused method is probed under every method.
-/

namespace Dispatch

/-! ## What a pattern captures -/

/-- The text of a target from its piece at a place on. -/
def Target.remainder (target : String) (index : Nat) : String :=
  String.ofList (fromPiece (path target) index)

namespace Segment

/-- The name and the raw text that a segment captures at its place. -/
def captured? (target : String) (segment : Segment) (index : Nat) :
    Option (String × String) :=
  match segment with
  | .param name => (Target.pieces target)[index]?.map fun piece => (name, piece)
  | .wildcard name => some (name, Target.remainder target index)
  | .literal _ | .endAnchor => none

end Segment

def Pattern.captured (pattern : Pattern) (target : String) :
    List (String × String) :=
  pattern.segments.zipIdx.filterMap fun entry =>
    entry.1.captured? target entry.2

section

variable {target : String} {index : Nat} {piece : Piece}

theorem pieces_getElem?_text
    (hpiece : (Path.ofTarget target).pieces[index]? = some piece) :
    (Target.pieces target)[index]? = some piece.text := by
  rw [← Target.texts_ofTarget, Path.texts, List.getElem?_map, hpiece]
  rfl

theorem pieces_getElem?_rest
    (hpiece : (Path.ofTarget target).pieces[index]? = some piece) :
    piece.rest = Target.remainder target index := by
  unfold Path.pieces at hpiece
  rw [Target.toList_ofTarget, List.getElem?_map] at hpiece
  obtain ⟨span, hspan, rfl⟩ := Option.map_eq_some_iff.mp hpiece
  have hindex := (List.getElem?_eq_some_iff.mp hspan).1
  have hrest := spans_getElem?_snd hindex
  rw [hspan] at hrest
  exact congrArg String.ofList (Option.some.inj hrest)

/-- Segments that take the pieces from a place on capture what each of them
captures at its own place. -/
theorem capturedFrom_drop {trailing : Prop} {segments : List Segment}
    {start : Nat}
    (htakes : Takes trailing segments
      (((Path.ofTarget target).pieces.drop start).map Piece.text)) :
    capturedFrom segments ((Path.ofTarget target).pieces.drop start) =
      (segments.zipIdx start).filterMap fun entry =>
        entry.1.captured? target entry.2 := by
  induction segments generalizing start with
  | nil => rfl
  | cons segment rest ih =>
      rw [List.zipIdx_cons, List.filterMap_cons]
      cases hpieces : (Path.ofTarget target).pieces.drop start with
      | nil =>
          rw [hpieces] at htakes
          rcases takes_nil_pieces_iff.mp htakes with hnil | ⟨hanchor, _⟩
          · contradiction
          · obtain ⟨rfl, rfl⟩ := List.cons.inj hanchor
            rfl
      | cons piece pieces =>
          have hpiece : (Path.ofTarget target).pieces[start]? = some piece := by
            rw [← List.head?_drop, hpieces]
            rfl
          have hrest : (Path.ofTarget target).pieces.drop (start + 1) =
              pieces := by
            rw [← List.tail_drop, hpieces]
            rfl
          rw [hpieces, List.map_cons] at htakes
          cases htakes with
          | literal htail =>
              rw [← hrest] at htail ⊢
              exact ih htail
          | param htail =>
              rw [← hrest] at htail ⊢
              rw [capturedFrom, ih htail, Segment.captured?,
                pieces_getElem?_text hpiece]
              rfl
          | wildcard hne =>
              rw [capturedFrom, pieces_getElem?_rest hpiece]
              rfl

theorem Pattern.Accepts.capturedFrom_eq {pattern : Pattern}
    (haccepts : pattern.Accepts target) :
    capturedFrom pattern.segments (Path.ofTarget target).pieces =
      pattern.captured target := by
  have htakes : Takes (Path.ofTarget target).Trailing pattern.segments
      (((Path.ofTarget target).pieces.drop 0).map Piece.text) :=
    RouteTable.accepts_iff.mp haccepts
  exact capturedFrom_drop htakes

end

theorem capturedFrom_map_fst {trailing : Prop} {segments : List Segment}
    {pieces : List Piece}
    (htakes : Takes trailing segments (pieces.map Piece.text)) :
    (capturedFrom segments pieces).map Prod.fst =
      segments.filterMap Segment.captureName? := by
  induction segments generalizing pieces with
  | nil => rfl
  | cons segment rest ih =>
      cases pieces with
      | nil =>
          rcases takes_nil_pieces_iff.mp htakes with hnil | ⟨hanchor, _⟩
          · contradiction
          · obtain ⟨rfl, rfl⟩ := List.cons.inj hanchor
            rfl
      | cons piece pieces =>
          cases htakes with
          | literal htail => exact ih htail
          | param htail => exact congrArg (List.cons _) (ih htail)
          | wildcard hne => rfl

/-- A pattern that takes a target captures one text for each of its names, in
their order. -/
theorem Pattern.Accepts.captured_map_fst {pattern : Pattern} {target : String}
    (haccepts : pattern.Accepts target) :
    (pattern.captured target).map Prod.fst = pattern.paramNames := by
  have htakes := RouteTable.accepts_iff.mp haccepts
  rw [← haccepts.capturedFrom_eq]
  exact capturedFrom_map_fst htakes

/-! ## What a lookup does to a store -/

namespace RouteTable

variable {α : Type}

theorem groups_leaves (table : RouteTable α) (method : Method) (path : Path) :
    (Search.firstOf ((table.groups method).map (·.find path table.decode))).Leaves
      table.decode
      ((table.answer method path).map (Trie.Claim.traced path.pieces)) := by
  have hsearch := Search.leaves_firstOf_map (table.groups method)
    fun routes _ => routes.find_leaves path table.decode
  rw [← findSome?_groups, List.map_findSome?]
  exact hsearch

/-- Probing the methods leaves nothing behind. -/
theorem allowedMethods_snd (path : Path)
    (families : List (Method × MethodRoutes)) (allow : AllowList)
    {captures : Captures} (hcounted : captures.Counted) :
    (allowedMethods path families allow captures).2.Agrees captures := by
  induction families generalizing allow captures with
  | nil => exact .refl captures
  | cons entry rest ih =>
      have hprobe := (entry.2.find_leaves path false).captures captures hcounted
      have hback := Captures.Agrees.unwind_of_setAll hcounted hprobe
      exact (ih _ (hcounted.of_agrees hback)).trans hback

section

variable {table : RouteTable α} {method : Method} {target : String}
  {captures : Captures}

theorem Consistent.lookup_snd_of_refused (hconsistent : table.Consistent)
    (hcounted : captures.Counted)
    (hrefused : (table.lookup method target captures).1.route? = none) :
    (table.lookup method target captures).2.Agrees captures := by
  have hleaves := table.groups_leaves method (Path.ofTarget target)
  have hnone : table.answer method (Path.ofTarget target) = none := by
    rw [route?_lookup] at hrefused
    cases hanswer : table.answer method (Path.ofTarget target) with
    | none => rfl
    | some claim =>
        obtain ⟨route, hroute, rfl, _⟩ :=
          hconsistent.exists_route_of_answer hanswer
        rw [hanswer, Option.bind_some, hconsistent.getElem?_id hroute] at hrefused
        contradiction
  rw [hnone] at hleaves
  have hanswers := hleaves.answers captures
  have hsearched := hleaves.captures captures hcounted
  have hprobed := allowedMethods_snd (Path.ofTarget target) table.byMethod
    .empty (hcounted.of_agrees hsearched)
  unfold lookup
  dsimp only
  rw [hanswers]
  dsimp only [Option.map_none, Option.bind_none]
  split_ifs
  · exact hprobed.trans hsearched
  · exact hprobed.trans hsearched

theorem Consistent.lookup_snd_of_found (hconsistent : table.Consistent)
    (hcounted : captures.Counted) {route : Route α}
    (hfound : (table.lookup method target captures).1 = .found route) :
    (table.lookup method target captures).2.Agrees
      (captures.captureAll table.decode (route.pattern.captured target)) := by
  have hleaves := table.groups_leaves method (Path.ofTarget target)
  obtain ⟨hroute, hanswer⟩ := hconsistent.lookup_eq_found_iff.mp hfound
  obtain ⟨_, haccepts, _⟩ := hconsistent.of_found hfound
  rw [hanswer] at hleaves
  have hanswers := hleaves.answers captures
  have hsearched := hleaves.captures captures hcounted
  unfold lookup
  dsimp only
  rw [hanswers]
  dsimp only [Option.map_some, Option.bind_some, Trie.Claim.traced]
  rw [hconsistent.getElem?_id hroute]
  rw [← haccepts.capturedFrom_eq]
  exact hsearched

/-- Stores that agree are answered alike, and left in agreement. -/
theorem Consistent.lookup_agrees (hconsistent : table.Consistent)
    {other : Captures} (hcounted : captures.Counted)
    (hagrees : other.Agrees captures) :
    (table.lookup method target other).1 =
        (table.lookup method target captures).1 ∧
      (table.lookup method target other).2.Agrees
        (table.lookup method target captures).2 := by
  have hanswer : (table.lookup method target other).1 =
      (table.lookup method target captures).1 := by
    rw [lookup_fst, lookup_fst]
  have hcountedOther := hcounted.of_agrees hagrees
  refine ⟨hanswer, ?_⟩
  cases hroute : (table.lookup method target captures).1.route? with
  | none =>
      have hleft := hconsistent.lookup_snd_of_refused hcountedOther
        (hanswer ▸ hroute)
      have hright := hconsistent.lookup_snd_of_refused hcounted hroute
      exact hleft.trans (hagrees.trans hright.symm)
  | some route =>
      have hfound := Lookup.route?_eq_some.mp hroute
      have hleft := hconsistent.lookup_snd_of_found hcountedOther
        (hanswer.trans hfound)
      have hright := hconsistent.lookup_snd_of_found hcounted hfound
      exact hleft.trans ((hagrees.captureAll _ _).trans hright.symm)

end

theorem ofCalls_decode (policy : ConflictPolicy) (decode : Bool)
    (calls : List (Call α)) : (ofCalls policy decode calls).decode = decode := by
  induction calls using List.reverseRecOn with
  | nil => rfl
  | append_singleton calls call ih =>
      rw [ofCalls_concat]
      rcases apply_cases (ofCalls policy decode calls) call with
        hsame | ⟨pattern, value, _, _, hpush⟩
      · rw [hsame, ih]
      · rw [hpush, push_decode, ih]

/-- A lookup that finds no route changes nothing that can be read from the
store.  One that finds a route appends an entry for each name of its pattern,
decoded if the table decodes.  What is found does not depend on that. -/
theorem captured_ofCalls (policy : ConflictPolicy) (decode : Bool)
    (calls : List (Call α)) (method : Method) (target : String)
    {captures : Captures} (hreachable : captures.Reachable) :
    let table := ofCalls policy decode calls
    let result := table.lookup method target captures
    (result.1.route? = none →
        result.2.entries = captures.entries ∧
          result.2.size = captures.size ∧
          ∀ name, result.2.get name = captures.get name) ∧
      (∀ route, result.1 = .found route →
        (route.pattern.captured target).map Prod.fst =
            route.pattern.paramNames ∧
          result.2.size =
            captures.size + (route.pattern.captured target).length ∧
          ∀ old, captures.entries = .ok old →
            result.2.entries = .ok (old ++
              (route.pattern.captured target).map fun entry =>
                (entry.1,
                  if decode then Text.percentDecode entry.2 else entry.2))) ∧
      ∀ (other : Bool) (store : Captures),
        ({ table with decode := other }.lookup method target store).1 =
          result.1 := by
  intro table result
  have hconsistent : table.Consistent := consistent_ofCalls policy decode calls
  have hcounted : captures.Counted := hreachable.counted
  have hdecode : table.decode = decode := ofCalls_decode policy decode calls
  refine ⟨?_, ?_, ?_⟩
  · intro hrefused
    have hagrees : result.2.Agrees captures :=
      hconsistent.lookup_snd_of_refused hcounted hrefused
    exact ⟨hagrees.entries, hagrees.size, hagrees.get⟩
  · intro route hfound
    have haccepts := (hconsistent.of_found hfound).2.1
    have hagrees : result.2.Agrees (captures.captureAll table.decode
        (route.pattern.captured target)) :=
      hconsistent.lookup_snd_of_found hcounted hfound
    refine ⟨haccepts.captured_map_fst, ?_, ?_⟩
    · rw [hagrees.size, Captures.captureAll, Captures.size_setAll,
        List.length_map]
    · intro old hold
      rw [hagrees.entries, Captures.captureAll,
        Captures.entries_setAll hcounted hold, hdecode]
      simp only [Captures.captureValue_eq]
  · intro other store
    rw [lookup_fst]
    exact (lookup_fst table method target captures).symm

def fileTable : RouteTable Nat :=
  ofCalls .strict true
    [.add (some .get) "/files/:name/old" 0,
      .add (some .get) "/files/:id/*rest" 1]

def restRoute : Route Nat :=
  ⟨1, ⟨"/files/:id/*rest", some .get,
    [.literal "files", .param "id", .wildcard "rest"]⟩, 1⟩

/-- The first route is given up after its name has been captured. -/
theorem captured_ofCalls_fileTable :
    (Captures.empty.set "user" "7").Reachable ∧
      (fileTable.lookup .get "/files/a%20b//x//y/"
        (Captures.empty.set "user" "7")).2.entries =
          .ok [("user", "7"), ("id", "a b"), ("rest", "x//y/")] := by
  have hreachable := Captures.Reachable.empty.set "user" "7"
  have hconsistent : fileTable.Consistent := consistent_ofCalls .strict true _
  have hroute : restRoute ∈ fileTable.routes :=
    Array.mem_toList_iff.mp (by decide)
  have hfound : (fileTable.lookup .get "/files/a%20b//x//y/"
      (Captures.empty.set "user" "7")).1 = .found restRoute :=
    hconsistent.lookup_eq_found_iff.mpr ⟨hroute, by decide⟩
  have hcaptured := (captured_ofCalls .strict true _ .get
    "/files/a%20b//x//y/" hreachable).2.1 _ hfound
  have hold : (Captures.empty.set "user" "7").entries =
      .ok [("user", "7")] := by
    decide
  refine ⟨hreachable, ?_⟩
  rw [fileTable, hcaptured.2.2 _ hold]
  decide

end RouteTable
end Dispatch
