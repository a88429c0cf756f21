import Dispatch.Proofs.Trie.Precedence
import Dispatch.RouteTable
import Mathlib.Tactic

/-!
# The map of normal paths

A pattern without captures is kept twice: in the trie, and under its normal
path in a map that is asked first.  A normal path is read back here as the slot
of its pattern.  Below the root a trie search for that path goes through literal
children only, so it reaches the same slot and captures nothing.

At the root the two can differ.  The path `/` is the normal path of the plain
root, but it ends in a slash, so the trie prefers an anchored root.
-/

namespace Dispatch

/-! ## Reading a normal path back -/

/-- The segments of a pattern that consists of literals, with or without an end
anchor. -/
def literalSlot (texts : List String) (trailing : Bool) : List Segment :=
  texts.map .literal ++ if trailing then [.endAnchor] else []

/-- The slot of a pattern whose normal path this is. -/
def Path.slot (path : Path) : List Segment :=
  if path.text = "/" then [] else literalSlot path.texts path.Trailing

theorem Pattern.exists_texts_of_literalText {segments : List Segment}
    {text : String} (hplaced : WellPlaced segments)
    (htext : literalText segments = some text) :
    ∃ texts trailing, (∀ piece ∈ texts, IsPiece piece) ∧
      segments = literalSlot texts trailing ∧
      text.toList = slashed texts ++ if trailing then ['/'] else [] := by
  induction segments generalizing text with
  | nil =>
      simp only [literalText, Option.some.injEq] at htext
      subst text
      exact ⟨[], false, by simp, rfl, rfl⟩
  | cons segment rest ih =>
      cases segment with
      | literal piece =>
          obtain ⟨tail, htail, rfl⟩ := Option.map_eq_some_iff.mp htext
          obtain ⟨texts, trailing, hpieces, hrest, hlist⟩ :=
            ih hplaced.tail htail
          refine ⟨piece :: texts, trailing, ?_, ?_, ?_⟩
          · intro other hmem
            rcases List.mem_cons.mp hmem with rfl | hmem
            · exact hplaced.1 other rfl
            · exact hpieces other hmem
          · rw [hrest]
            rfl
          · simp [hlist, slashed]
      | endAnchor =>
          obtain rfl := hplaced.2.1 trivial
          simp only [literalText, Option.map_some, Option.some.injEq] at htext
          subst text
          exact ⟨[], true, by simp, rfl, rfl⟩
      | param name => simp [literalText] at htext
      | wildcard name => simp [literalText] at htext

theorem getLast?_slashed {texts : List String} (hne : texts ≠ [])
    (hpieces : ∀ text ∈ texts, IsPiece text) :
    (slashed texts).getLast? ≠ some '/' := by
  obtain ⟨init, last, rfl⟩ :=
    (List.eq_nil_or_concat texts).resolve_left hne
  have hlast : IsPiece last := hpieces last (by simp)
  have htext : last.toList ≠ [] := fun h =>
    hlast.1 (String.toList_eq_nil_iff.mp h)
  have hshape : slashed (init.concat last) =
      (slashed init ++ ['/']) ++ last.toList := by
    simp [slashed]
  intro hslash
  rw [hshape, List.getLast?_append_of_ne_nil _ htext] at hslash
  exact hlast.2 (List.mem_of_getLast? hslash)

section

variable {path : Path} {texts : List String} {trailing : Bool}

theorem Path.texts_of_slashed (hpieces : ∀ text ∈ texts, IsPiece text)
    (hlist : path.text.toList =
      slashed texts ++ if trailing then ['/'] else []) :
    path.texts = texts := by
  have hparts : slashParts path.text.toList = texts.map String.toList := by
    rw [hlist]
    cases trailing with
    | true =>
        have hslash : ['/'].head? = some '/' := rfl
        simpa using slashParts_slashed_append hpieces (Or.inr hslash)
    | false => simpa using slashParts_slashed_append hpieces (Or.inl rfl)
  rw [Path.texts_eq, hparts]
  simp

theorem Path.trailing_of_slashed (hne : texts ≠ [])
    (hpieces : ∀ text ∈ texts, IsPiece text)
    (hlist : path.text.toList =
      slashed texts ++ if trailing then ['/'] else []) :
    decide path.Trailing = trailing := by
  have hlast := getLast?_slashed hne hpieces
  have htrailing : path.Trailing ↔ trailing = true := by
    unfold Path.Trailing
    rw [hlist]
    cases trailing with
    | true => simp
    | false => simpa using hlast
  rw [Bool.eq_iff_iff, decide_eq_true_eq]
  exact htrailing

theorem ne_root_of_slashed (hne : texts ≠ [])
    (hpieces : ∀ text ∈ texts, IsPiece text)
    (hlist : path.text.toList =
      slashed texts ++ if trailing then ['/'] else []) : path.text ≠ "/" := by
  intro hroot
  have htexts := Path.texts_of_slashed hpieces hlist
  obtain ⟨text⟩ := path
  obtain rfl : text = "/" := hroot
  have hnone : (Path.mk "/").texts = [] := by decide
  exact hne (htexts.symm.trans hnone)

end

/-- A normal path belongs to the patterns on one slot only. -/
theorem Pattern.segments_eq_slot {pattern : Pattern} {path : Path}
    (hplaced : WellPlaced pattern.segments)
    (hstatic : pattern.staticPath? = some path.text) :
    pattern.segments = path.slot := by
  unfold staticPath? at hstatic
  split_ifs at hstatic with hanchor
  obtain ⟨text, htext, hpath⟩ := Option.map_eq_some_iff.mp hstatic
  obtain ⟨texts, trailing, hpieces, hsegments, hlist⟩ :=
    exists_texts_of_literalText hplaced htext
  by_cases hnil : texts = []
  · subst texts
    cases trailing with
    | true => exact (hanchor hsegments).elim
    | false =>
        have hempty : text = "" := String.toList_eq_nil_iff.mp hlist
        rw [if_pos hempty] at hpath
        rw [hsegments, Path.slot, if_pos hpath.symm]
        rfl
  · have hne : text ≠ "" := by
      rintro rfl
      have hslashed := (List.append_eq_nil_iff.mp hlist.symm).1
      refine hnil (List.eq_nil_iff_forall_not_mem.mpr ?_)
      simpa [slashed] using hslashed
    rw [if_neg hne] at hpath
    rw [hpath] at hlist
    rw [hsegments, Path.slot, if_neg (ne_root_of_slashed hnil hpieces hlist),
      Path.texts_of_slashed hpieces hlist,
      Path.trailing_of_slashed hnil hpieces hlist]

/-! ## The search for a normal path -/

namespace Trie

/-- The search for a slot of literals goes through literal children only, so
it captures nothing on its way to the first claim. -/
theorem find_literalSlot {claims : List Claim} {id : RouteId}
    {trailing : Bool} {pieces : List Piece} (decode : Bool)
    (hplaced : ∀ claim ∈ claims, WellPlaced claim.segments)
    (hfirst : firstClaim? (literalSlot (pieces.map Piece.text) trailing)
      claims = some id) :
    find trailing decode pieces (ofClaims claims) = .found id := by
  induction pieces generalizing claims with
  | nil =>
      rw [find]
      cases trailing with
      | false =>
          rw [Bool.false_and, if_neg Bool.false_ne_true, route_ofClaims]
          exact congrArg Search.ofOption hfirst
      | true =>
          have hanchored : (ofClaims claims).anchored = some id := by
            rw [anchored_ofClaims,
              ← firstClaim?_of_isFinal .endAnchor trivial hplaced]
            exact hfirst
          rw [hanchored]
          rfl
  | cons piece rest ih =>
      have hbelow : firstClaim? (literalSlot (rest.map Piece.text) trailing)
          (under (.literal piece.text) claims) = some id := by
        rw [firstClaim?_under]
        exact hfirst
      have hchild := child?_eq_some_of_mem (mem_of_firstClaim? hbelow)
      rw [find, lookup_literals_ofClaims, hchild]
      simp only [Option.toList_some, List.map_cons, List.map_nil,
        List.cons_append]
      rw [ih (under_wellPlaced hplaced) hbelow]
      rfl

/-- At the path `/` an anchored root comes before the plain one. -/
theorem find_root {path : Path} (trie : Trie) (decode : Bool)
    (hroot : path.text = "/") :
    trie.find path.Trailing decode path.pieces =
      .ofOption (trie.anchored.or trie.route) := by
  obtain ⟨text⟩ := path
  obtain rfl : text = "/" := hroot
  have hpieces : (Path.mk "/").pieces = [] := by decide
  have htrailing : (Path.mk "/").Trailing := by decide
  rw [hpieces, find, decide_eq_true htrailing]
  cases trie.anchored <;> rfl

end Trie

/-! ## The routes of one method and their insertions -/

namespace MethodRoutes

def ofInsertions (insertions : List (Pattern × RouteId)) : MethodRoutes :=
  insertions.foldl (fun routes entry => routes.insert entry.1 entry.2) .empty

def claims (insertions : List (Pattern × RouteId)) : List Trie.Claim :=
  insertions.map fun entry => ⟨entry.1.segments, entry.2⟩

section

variable {insertions : List (Pattern × RouteId)} {path : Path} {id : RouteId}

theorem ofInsertions_concat (insertions : List (Pattern × RouteId))
    (pattern : Pattern) (id : RouteId) :
    ofInsertions (insertions ++ [(pattern, id)]) =
      (ofInsertions insertions).insert pattern id := by
  simp [ofInsertions]

theorem root_ofInsertions (insertions : List (Pattern × RouteId)) :
    (ofInsertions insertions).root = Trie.ofClaims (claims insertions) := by
  induction insertions using List.reverseRecOn with
  | nil => rfl
  | append_singleton insertions entry ih =>
      have hclaims : claims (insertions ++ [entry]) =
          claims insertions ++ [⟨entry.1.segments, entry.2⟩] := by
        simp [claims]
      rw [ofInsertions_concat, insert, ih, hclaims, Trie.ofClaims_concat]

theorem claims_wellPlaced
    (hcompiled : ∀ entry ∈ insertions, entry.1.Compiled) :
    ∀ claim ∈ claims insertions, WellPlaced claim.segments := by
  intro claim hmem
  obtain ⟨entry, hentry, rfl⟩ := List.mem_map.mp hmem
  exact (hcompiled entry hentry).wellPlaced

/-- The map holds the first pattern inserted with a normal path. -/
theorem lookup_literals_ofInsertions (insertions : List (Pattern × RouteId))
    (text : String) :
    (ofInsertions insertions).literals.lookup text =
      (insertions.find? (·.1.staticPath? = some text)).map Prod.snd := by
  induction insertions using List.reverseRecOn with
  | nil => rfl
  | append_singleton insertions entry ih =>
      obtain ⟨pattern, id⟩ := entry
      rw [ofInsertions_concat, List.find?_append, Option.map_or, ← ih]
      unfold insert
      cases hstatic : pattern.staticPath? with
      | none => simp [hstatic]
      | some normal =>
          simp only [KeyedList.lookup_claim]
          congr 1
          by_cases htext : text = normal
          · simp [hstatic, htext]
          · simp [hstatic, htext, Ne.symm htext]

/-- A normal path is looked up as the slot of its patterns. -/
theorem lookup_literals_eq_firstClaim?
    (hcompiled : ∀ entry ∈ insertions, entry.1.Compiled) {pattern : Pattern}
    (hplaced : WellPlaced pattern.segments)
    (hstatic : pattern.staticPath? = some path.text) :
    (ofInsertions insertions).literals.lookup path.text =
      Trie.firstClaim? path.slot (claims insertions) := by
  have hpattern := Pattern.segments_eq_slot hplaced hstatic
  have hsame : ∀ entry ∈ insertions,
      decide (entry.1.staticPath? = some path.text) =
        decide (entry.1.segments = path.slot) := by
    intro entry hmem
    rw [decide_eq_decide]
    constructor
    · exact Pattern.segments_eq_slot (hcompiled entry hmem).wellPlaced
    · intro hsegments
      rw [← hstatic]
      unfold Pattern.staticPath?
      rw [hsegments, hpattern]
  rw [lookup_literals_ofInsertions, List.find?_congr hsame]
  simp [Trie.firstClaim?, claims, List.find?_map, Function.comp_def]

theorem firstClaim?_of_lookup_literals
    (hcompiled : ∀ entry ∈ insertions, entry.1.Compiled)
    (hlookup : (ofInsertions insertions).literals.lookup path.text = some id) :
    Trie.firstClaim? path.slot (claims insertions) = some id := by
  rw [← hlookup]
  rw [lookup_literals_ofInsertions] at hlookup
  obtain ⟨holder, hfind, _⟩ := Option.map_eq_some_iff.mp hlookup
  have hplaced := (hcompiled holder (List.mem_of_find?_eq_some hfind)).wellPlaced
  have hstatic : holder.1.staticPath? = some path.text := by
    simpa using List.find?_some hfind
  exact (lookup_literals_eq_firstClaim? hcompiled hplaced hstatic).symm

theorem lookup_literals_root
    (hcompiled : ∀ entry ∈ insertions, entry.1.Compiled) :
    (ofInsertions insertions).literals.lookup "/" =
      (ofInsertions insertions).root.route := by
  have hroot : (⟨"/", none, []⟩ : Pattern).staticPath? = some (Path.mk "/").text :=
    rfl
  have hplaced : WellPlaced (⟨"/", none, []⟩ : Pattern).segments := trivial
  rw [root_ofInsertions, Trie.route_ofClaims]
  exact lookup_literals_eq_firstClaim? hcompiled hplaced hroot

/-- The plain root and the anchored one belong to different routes. -/
def RootIsSplit (routes : MethodRoutes) : Prop :=
  ∃ plain anchored, routes.root.route = some plain ∧
    routes.root.anchored = some anchored ∧ plain ≠ anchored

/-- The map gives the answer of the trie, and leaves the captures as the trie
leaves them, but for the path `/` under a split root. -/
theorem find_eq_root_find_iff
    (hcompiled : ∀ entry ∈ insertions, entry.1.Compiled) (path : Path)
    (decode : Bool) (captures : Captures) :
    (ofInsertions insertions).find path decode captures =
        (ofInsertions insertions).root.find path.Trailing decode path.pieces
          captures ↔
      ¬(path.text = "/" ∧ (ofInsertions insertions).RootIsSplit) := by
  cases hlookup : (ofInsertions insertions).literals.lookup path.text with
  | none =>
      have hplain : path.text = "/" →
          (ofInsertions insertions).root.route = none := by
        intro hroot
        rw [← lookup_literals_root hcompiled, ← hroot, hlookup]
      have hunsplit :
          ¬(path.text = "/" ∧ (ofInsertions insertions).RootIsSplit) := by
        rintro ⟨hroot, plain, _, hroute, _⟩
        rw [hplain hroot] at hroute
        contradiction
      unfold find
      rw [hlookup]
      exact iff_of_true rfl hunsplit
  | some id =>
      have hfind : (ofInsertions insertions).find path decode = .found id := by
        unfold find
        rw [hlookup]
      rw [hfind]
      by_cases hroot : path.text = "/"
      · have hroute : (ofInsertions insertions).root.route = some id := by
          rw [← lookup_literals_root hcompiled, ← hroot, hlookup]
        rw [Trie.find_root _ decode hroot]
        cases hanchored : (ofInsertions insertions).root.anchored with
        | none =>
            rw [hroute]
            refine iff_of_true rfl ?_
            rintro ⟨_, _, anchored, _, hsome, _⟩
            rw [hanchored] at hsome
            contradiction
        | some anchored =>
            simp [Search.found, Search.ofOption, RootIsSplit, hroot, hroute,
              hanchored]
      · have hfirst := firstClaim?_of_lookup_literals hcompiled hlookup
        rw [Path.slot, if_neg hroot] at hfirst
        rw [root_ofInsertions, Trie.find_literalSlot decode
          (claims_wellPlaced hcompiled) hfirst]
        exact iff_of_true rfl fun hsplit => hroot hsplit.1

end

def splitRoot : List (Pattern × RouteId) :=
  [(⟨"/", some .get, []⟩, 0),
    (⟨"/\x7b$\x7d", some .get, [.endAnchor]⟩, 1)]

theorem splitRoot_compiled : ∀ entry ∈ splitRoot, entry.1.Compiled := by
  intro entry hmem
  rcases List.mem_cons.mp hmem with rfl | hmem
  · exact ⟨"/", some .get, by decide⟩
  · obtain rfl := List.mem_singleton.mp hmem
    exact ⟨"/\x7b$\x7d", some .get, by decide⟩

theorem find_eq_root_find_iff_splitRoot :
    (∀ entry ∈ splitRoot, entry.1.Compiled) ∧
      ((ofInsertions splitRoot).find ⟨"/"⟩ true .empty =
          (ofInsertions splitRoot).root.find (Path.mk "/").Trailing true
            (Path.mk "/").pieces .empty ↔
        ¬((Path.mk "/").text = "/" ∧ (ofInsertions splitRoot).RootIsSplit)) :=
  ⟨splitRoot_compiled,
    find_eq_root_find_iff splitRoot_compiled ⟨"/"⟩ true .empty⟩

/-- The map answers with the plain root and the trie with the anchored one. -/
theorem find_ne_root_find_splitRoot :
    (∀ entry ∈ splitRoot, entry.1.Compiled) ∧
      (ofInsertions splitRoot).find ⟨"/"⟩ true .empty = (some 0, .empty) ∧
      (ofInsertions splitRoot).root.find (Path.mk "/").Trailing true
        (Path.mk "/").pieces .empty = (some 1, .empty) :=
  ⟨splitRoot_compiled, by decide, by decide⟩

end MethodRoutes
end Dispatch
