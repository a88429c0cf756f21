import Dispatch.Proofs.RouteTable.Captured
import Dispatch.Proofs.Text.Slashes
import Mathlib.Tactic

/-!
# Two spellings of one path

Targets with the same pieces that end alike differ in repeated slashes only.
The trie is searched by pieces, so it cannot tell them apart, but the map of
normal paths is asked for the text as it stands and may know one of the two
only.  Below the root this makes no difference, since the map selects what the
trie would select.

Parameters name pieces, so their values are the same.  A wildcard takes the text
that is left with all its slashes.
-/

namespace Dispatch

/-! ## Captures -/

/-- Two spellings of one path, as far as the routes are concerned. -/
structure Target.Respells (target other : String) : Prop where
  pieces : Target.pieces target = Target.pieces other
  trailing : Target.Trailing target ↔ Target.Trailing other

section

variable {target other : String}

theorem Target.Respells.squeeze_remainder (h : Target.Respells target other)
    (index : Nat) :
    squeeze (Target.remainder target index).toList =
      squeeze (Target.remainder other index).toList := by
  have hparts : slashParts (Target.path target) =
      slashParts (Target.path other) := by
    have hinj : Function.Injective String.ofList := fun _ _ =>
      String.ofList_injective
    exact hinj.list_map h.pieces
  simpa [Target.remainder] using squeeze_fromPiece hparts h.trailing index

theorem Target.Respells.captured?_eq (h : Target.Respells target other)
    {segment : Segment} (hsegment : ∀ name, segment ≠ .wildcard name)
    (index : Nat) :
    segment.captured? target index = segment.captured? other index := by
  cases segment with
  | literal text => rfl
  | param name => simp [Segment.captured?, h.pieces]
  | wildcard name => exact (hsegment name rfl).elim
  | endAnchor => rfl

/-- Segments other than wildcards capture the same from both spellings. -/
theorem Target.Respells.captured_eq (h : Target.Respells target other)
    {segments : List Segment} (hnone : ∀ name, .wildcard name ∉ segments) :
    (segments.zipIdx.filterMap fun entry =>
        entry.1.captured? target entry.2) =
      segments.zipIdx.filterMap fun entry =>
        entry.1.captured? other entry.2 := by
  refine List.filterMap_congr fun entry hmem => h.captured?_eq ?_ entry.2
  intro name hwildcard
  exact hnone name (hwildcard ▸ List.fst_mem_of_mem_zipIdx hmem)

theorem Target.Respells.squeeze_captureValue
    (h : Target.Respells target other) (decode : Bool) (index : Nat) :
    squeeze (Captures.captureValue decode
        (Target.remainder target index)).toList =
      squeeze (Captures.captureValue decode
        (Target.remainder other index)).toList := by
  rw [Captures.captureValue_eq, Captures.captureValue_eq]
  cases decode with
  | false => exact h.squeeze_remainder index
  | true => exact Text.squeeze_percentDecode (h.squeeze_remainder index)

theorem Pattern.captured_of_wildcard {pattern : Pattern} {init : List Segment}
    {name : String} (hsegments : pattern.segments = init ++ [.wildcard name])
    (target : String) :
    pattern.captured target =
      (init.zipIdx.filterMap fun entry =>
        entry.1.captured? target entry.2) ++
          [(name, Target.remainder target init.length)] := by
  unfold captured
  rw [hsegments, List.zipIdx_append, List.filterMap_append]
  simp [Segment.captured?]

end

/-! ## The table -/

namespace RouteTable

variable {α : Type} {table : RouteTable α} {target other : String}

theorem Consistent.select_respelled (hconsistent : table.Consistent)
    (hrespells : Target.Respells target other)
    (hne : Target.pieces target ≠ []) (group : Option Method) :
    (table.family group).select (Path.ofTarget target) =
      (table.family group).select (Path.ofTarget other) := by
  have hcompiled := hconsistent.compiled_insertions group
  have hother : Target.pieces other ≠ [] := hrespells.pieces ▸ hne
  have htrailing : (Path.ofTarget target).Trailing ↔
      (Path.ofTarget other).Trailing := by
    rw [Target.trailing_ofTarget, Target.trailing_ofTarget]
    exact hrespells.trailing
  rw [← Target.texts_ofTarget] at hne hother
  rw [hconsistent.families,
    MethodRoutes.select_eq_root_select hcompiled hne,
    MethodRoutes.select_eq_root_select hcompiled hother,
    Target.texts_ofTarget, Target.texts_ofTarget, hrespells.pieces]
  simp only [htrailing]

theorem Consistent.outcome_respelled (hconsistent : table.Consistent)
    (hrespells : Target.Respells target other)
    (hne : Target.pieces target ≠ []) (method : Method) :
    table.outcome method (Path.ofTarget target) =
      table.outcome method (Path.ofTarget other) := by
  have hselect := hconsistent.select_respelled hrespells hne
  have hanswer : table.answer method (Path.ofTarget target) =
      table.answer method (Path.ofTarget other) := by
    unfold answer
    simp only [hselect]
  have hserving : table.serving (Path.ofTarget target) =
      table.serving (Path.ofTarget other) := by
    unfold serving
    congr 1
    refine List.filter_congr fun entry hmem => ?_
    rw [← hconsistent.family_of_mem hmem, hselect]
  unfold outcome
  rw [hanswer, hserving]

/-- Two spellings of one path with at least one piece are answered alike, and
leave the same entries in a store, but for repeated slashes in the value of a
wildcard.  It does not matter which of them the map of normal paths knows. -/
theorem lookup_respelled (policy : ConflictPolicy) (decode : Bool)
    (calls : List (Call α)) (method : Method) {target other : String}
    {captures : Captures} (hreachable : captures.Reachable)
    (hpieces : Target.pieces target = Target.pieces other)
    (hne : Target.pieces target ≠ [])
    (htrailing : Target.Trailing target ↔ Target.Trailing other) :
    let table := ofCalls policy decode calls
    let first := table.lookup method target captures
    let second := table.lookup method other captures
    first.1 = second.1 ∧
      (first.1.route? = none →
        first.2.entries = captures.entries ∧
          second.2.entries = captures.entries) ∧
      ∀ route, first.1 = .found route →
        ((∀ name, .wildcard name ∉ route.pattern.segments) →
          first.2.entries = second.2.entries) ∧
        ∀ name, .wildcard name ∈ route.pattern.segments →
          ∀ old, captures.entries = .ok old →
            ∃ known value respelled,
              first.2.entries = .ok (old ++ known ++ [(name, value)]) ∧
                second.2.entries = .ok (old ++ known ++ [(name, respelled)]) ∧
                squeeze value.toList = squeeze respelled.toList := by
  intro table first second
  have hconsistent : table.Consistent := consistent_ofCalls policy decode calls
  have hcounted : captures.Counted := hreachable.counted
  have hrespells : Target.Respells target other := ⟨hpieces, htrailing⟩
  have hsame : first.1 = second.1 := by
    have houtcome := hconsistent.outcome_respelled hrespells hne method
    rw [← lookup_fst table method target captures,
      ← lookup_fst table method other captures] at houtcome
    exact houtcome
  refine ⟨hsame, ?_, ?_⟩
  · intro hrefused
    have hfirst := hconsistent.lookup_snd_of_refused hcounted hrefused
    have hsecond := hconsistent.lookup_snd_of_refused hcounted
      (hsame ▸ hrefused)
    exact ⟨hfirst.entries, hsecond.entries⟩
  · intro route hfound
    have hfirst := hconsistent.lookup_snd_of_found hcounted hfound
    have hsecond := hconsistent.lookup_snd_of_found hcounted
      (hsame.symm.trans hfound)
    have hplaced := (hconsistent.compiled route
      (hconsistent.of_found hfound).1).wellPlaced
    constructor
    · intro hnone
      have hcaptured : route.pattern.captured target =
          route.pattern.captured other := hrespells.captured_eq hnone
      rw [hcaptured] at hfirst
      exact hfirst.entries.trans hsecond.entries.symm
    · intro name hmem old hold
      obtain ⟨init, hsegments, hinit⟩ := hplaced.exists_init hmem
      rw [Pattern.captured_of_wildcard hsegments] at hfirst hsecond
      rw [hrespells.captured_eq hinit] at hfirst
      have hleft := hfirst.entries
      have hright := hsecond.entries
      rw [Captures.captureAll, Captures.entries_setAll hcounted hold,
        List.map_append, ← List.append_assoc] at hleft hright
      exact ⟨_, _, _, hleft, hright,
        hrespells.squeeze_captureValue table.decode init.length⟩

def docsCalls : List (Call Nat) :=
  [.add (some .get) "/docs/index" 0, .add (some .get) "/docs/*page" 1]

def docsTable : RouteTable Nat :=
  ofCalls .strict true docsCalls

def pageRoute : Route Nat :=
  ⟨1, ⟨"/docs/*page", some .get, [.literal "docs", .wildcard "page"]⟩, 1⟩

theorem found_pageRoute :
    (docsTable.lookup .get "/docs/a//b" .empty).1 = .found pageRoute := by
  have hconsistent : docsTable.Consistent := consistent_ofCalls .strict true _
  have hroute : pageRoute ∈ docsTable.routes :=
    Array.mem_toList_iff.mp (by decide)
  exact hconsistent.lookup_eq_found_iff.mpr ⟨hroute, by decide⟩

/-- The map knows the first spelling of the index and not the second.  The
second pair is for the page, whose value keeps its slashes. -/
theorem lookup_respelled_docsTable :
    ((Target.pieces "/docs/index" = Target.pieces "//docs///index?x" ∧
        Target.pieces "/docs/index" ≠ [] ∧
        (Target.Trailing "/docs/index" ↔
          Target.Trailing "//docs///index?x")) ∧
      (docsTable.family (some .get)).literals.lookup "/docs/index" = some 0 ∧
      (docsTable.family (some .get)).literals.lookup "//docs///index" = none ∧
      (docsTable.lookup .get "/docs/index" .empty).1 =
        (docsTable.lookup .get "//docs///index?x" .empty).1) ∧
    (Target.pieces "/docs/a//b" = Target.pieces "/docs//a/b" ∧
        Target.pieces "/docs/a//b" ≠ [] ∧
        (Target.Trailing "/docs/a//b" ↔ Target.Trailing "/docs//a/b")) ∧
      ∃ known value respelled,
        (docsTable.lookup .get "/docs/a//b" .empty).2.entries =
            .ok ([] ++ known ++ [("page", value)]) ∧
          (docsTable.lookup .get "/docs//a/b" .empty).2.entries =
            .ok ([] ++ known ++ [("page", respelled)]) ∧
          squeeze value.toList = squeeze respelled.toList := by
  have hindex : Target.pieces "/docs/index" =
      Target.pieces "//docs///index?x" := by
    decide
  have hindexTrailing :
      Target.Trailing "/docs/index" ↔ Target.Trailing "//docs///index?x" := by
    unfold Target.Trailing
    decide
  have hpage : Target.pieces "/docs/a//b" = Target.pieces "/docs//a/b" := by
    decide
  have hpageTrailing :
      Target.Trailing "/docs/a//b" ↔ Target.Trailing "/docs//a/b" := by
    unfold Target.Trailing
    decide
  have hsame := lookup_respelled .strict true docsCalls .get .empty hindex
    (by decide) hindexTrailing
  have hvalues := (lookup_respelled .strict true docsCalls .get .empty hpage
    (by decide) hpageTrailing).2.2 pageRoute found_pageRoute
  exact ⟨⟨⟨hindex, by decide, hindexTrailing⟩, by decide, by decide, hsame.1⟩,
    ⟨hpage, by decide, hpageTrailing⟩,
    hvalues.2 "page" (by decide) [] (by decide)⟩

end RouteTable
end Dispatch
