import Dispatch.Path
import Mathlib.Data.List.TakeWhile
import Mathlib.Tactic

/-!
# The pieces of a request target

What a target says to the routes is read off here without the search in mind:
the target is cut at its first `?`, the rest is split at every slash, and the
empty parts are dropped.  The paths that the lookup works on are shown to say
the same.

Targets can also be written: a list of proper pieces has a target of which it
is the list of pieces, so nothing that is proved about pieces speaks of
requests that do not exist.
-/

namespace Dispatch

/-- What can stand between two slashes of a request path. -/
def IsPiece (text : String) : Prop :=
  text ≠ "" ∧ '/' ∉ text.toList

/-! ## Splitting at slashes -/

/-- The non-empty parts of a text between slashes. -/
def slashParts (text : List Char) : List (List Char) :=
  (text.splitOn '/').filter (· ≠ [])

@[simp] theorem slashParts_nil : slashParts [] = [] := by
  simp [slashParts]

theorem slashParts_append_slash (before after : List Char) :
    slashParts (before ++ '/' :: after) =
      slashParts before ++ slashParts after := by
  unfold slashParts
  rw [List.splitOn_append_cons_self, List.filter_append]

@[simp] theorem slashParts_slash_cons (after : List Char) :
    slashParts ('/' :: after) = slashParts after := by
  simpa using slashParts_append_slash [] after

theorem slashParts_of_not_mem {text : List Char} (hne : text ≠ [])
    (hslash : '/' ∉ text) : slashParts text = [text] := by
  unfold slashParts
  rw [List.splitOn_eq_singleton hslash]
  simp [hne]

theorem slashParts_cons_of_ne {c : Char} (hc : c ≠ '/') (rest : List Char) :
    slashParts (c :: rest) =
      match rest, slashParts rest with
      | d :: _, part :: more =>
        if d = '/' then [c] :: part :: more else (c :: part) :: more
      | _, more => [c] :: more := by
  have hbeq : (c == '/') = false := by simpa using hc
  have hhead : slashParts (c :: rest) =
      ((rest.splitOn '/').modifyHead (c :: ·)).filter (· ≠ []) := by
    unfold slashParts
    rw [List.splitOn_cons_eq_if_modifyHead, hbeq]
    simp
  cases rest with
  | nil => simp [hhead]
  | cons d rest =>
      by_cases hd : d = '/'
      · subst d
        have hsplit : ('/' :: rest).splitOn '/' = [] :: rest.splitOn '/' := by
          simp [List.splitOn_cons_eq_if_modifyHead]
        rw [hhead, hsplit]
        rw [slashParts_slash_cons]
        cases hparts : slashParts rest <;>
          simpa [slashParts] using hparts
      · have hbeqd : (d == '/') = false := by simpa using hd
        have hsplit : (d :: rest).splitOn '/' =
            (rest.splitOn '/').modifyHead (d :: ·) := by
          rw [List.splitOn_cons_eq_if_modifyHead, hbeqd]
          simp
        obtain ⟨part, more, hparts⟩ :
            ∃ part more, rest.splitOn '/' = part :: more :=
          List.exists_cons_of_ne_nil (List.splitOn_ne_nil '/' rest)
        rw [hhead]
        unfold slashParts
        simp [hsplit, hparts, hd]

/-- The parts that the lookup walks along are the parts between slashes. -/
theorem spans_map_fst (text : List Char) :
    (Path.spans text).map Prod.fst = slashParts text := by
  induction text with
  | nil => simp [Path.spans]
  | cons c rest ih =>
      by_cases hc : c = '/'
      · subst c
        rw [slashParts_slash_cons, ← ih]
        simp [Path.spans]
      · rw [slashParts_cons_of_ne hc, ← ih]
        simp only [Path.spans, if_neg hc]
        cases rest with
        | nil => simp [Path.spans]
        | cons d rest =>
            cases hspans : Path.spans (d :: rest) with
            | nil => simp
            | cons span more =>
                obtain ⟨part, tail⟩ := span
                by_cases hd : d = '/'
                · simp [hd]
                · simp [hd]

/-! ### The rest of a path -/

/-- A text from its piece at a place on, with all that follows it. -/
def fromPiece (text : List Char) : Nat → List Char
  | 0 => text.dropWhile (· = '/')
  | index + 1 =>
    fromPiece ((text.dropWhile (· = '/')).dropWhile (· ≠ '/')) index

theorem spans_dropWhile_slash (text : List Char) :
    Path.spans (text.dropWhile (· = '/')) = Path.spans text := by
  induction text with
  | nil => rfl
  | cons c rest ih =>
      by_cases hc : c = '/'
      · have hspans : Path.spans (c :: rest) = Path.spans rest := by
          simp [Path.spans, hc]
        rw [List.dropWhile_cons_of_pos (by simpa using hc), ih, hspans]
      · rw [List.dropWhile_cons_of_neg (by simpa using hc)]

theorem ne_slash_of_dropWhile {text rest : List Char} {c : Char}
    (hrest : text.dropWhile (· = '/') = c :: rest) : c ≠ '/' := by
  have hne : text.dropWhile (· = '/') ≠ [] := by simp [hrest]
  have hhead := List.head_dropWhile_not (· = '/') hne
  simpa [hrest] using hhead

/-- A walk takes the characters up to the next slash and goes on there. -/
theorem spans_cons_of_ne {c : Char} (hc : c ≠ '/') (rest : List Char) :
    Path.spans (c :: rest) =
      (c :: rest.takeWhile (· ≠ '/'), c :: rest) ::
        Path.spans (rest.dropWhile (· ≠ '/')) := by
  induction rest generalizing c with
  | nil => simp [Path.spans, hc]
  | cons d rest ih =>
      rw [Path.spans.eq_def (c :: d :: rest)]
      by_cases hd : d = '/'
      · rw [List.takeWhile_cons_of_neg (by simpa using hd),
          List.dropWhile_cons_of_neg (by simpa using hd)]
        simp only [if_neg hc]
        cases Path.spans (d :: rest) with
        | nil => rfl
        | cons span spans => simp only [if_pos hd]
      · rw [List.takeWhile_cons_of_pos (by simpa using hd),
          List.dropWhile_cons_of_pos (by simpa using hd)]
        simp only [if_neg hc, ih hd, if_neg hd]

/-- Each piece remembers the text from there on. -/
theorem spans_getElem?_snd {text : List Char} {index : Nat}
    (hindex : index < (Path.spans text).length) :
    (Path.spans text)[index]?.map Prod.snd = some (fromPiece text index) := by
  induction index generalizing text with
  | zero =>
      rw [← spans_dropWhile_slash] at hindex ⊢
      rw [fromPiece]
      cases hrest : text.dropWhile (· = '/') with
      | nil => simp [hrest, Path.spans] at hindex
      | cons c rest =>
          rw [spans_cons_of_ne (ne_slash_of_dropWhile hrest)]
          rfl
  | succ index ih =>
      rw [← spans_dropWhile_slash] at hindex ⊢
      rw [fromPiece]
      cases hrest : text.dropWhile (· = '/') with
      | nil => simp [hrest, Path.spans] at hindex
      | cons c rest =>
          have hc := ne_slash_of_dropWhile hrest
          rw [hrest, spans_cons_of_ne hc, List.length_cons] at hindex
          rw [spans_cons_of_ne hc, List.getElem?_cons_succ,
            ih (Nat.lt_of_succ_lt_succ hindex),
            List.dropWhile_cons_of_pos (by simpa using hc)]

theorem mem_splitOn_slash {text part : List Char}
    (hmem : part ∈ text.splitOn '/') : '/' ∉ part ∧ part ⊆ text := by
  induction text generalizing part with
  | nil =>
      have hpart : part = [] := by simpa using hmem
      simp [hpart]
  | cons c rest ih =>
      rw [List.splitOn_cons_eq_if_modifyHead] at hmem
      by_cases hc : c = '/'
      · subst c
        simp only [beq_self_eq_true, if_true, List.mem_cons] at hmem
        rcases hmem with hempty | hrest
        · simp [hempty]
        · obtain ⟨hslash, hsub⟩ := ih hrest
          exact ⟨hslash, List.subset_cons_of_subset _ hsub⟩
      · obtain ⟨first, more, hsplit⟩ :
            ∃ first more, rest.splitOn '/' = first :: more :=
          List.exists_cons_of_ne_nil (List.splitOn_ne_nil '/' rest)
        have hbeq : (c == '/') = false := by simpa using hc
        rw [hbeq, hsplit] at hmem
        simp only [Bool.false_eq_true, if_false, List.modifyHead_cons,
          List.mem_cons] at hmem
        rcases hmem with hfirst | hmore
        · have hmem : first ∈ rest.splitOn '/' := by simp [hsplit]
          obtain ⟨hslash, hsub⟩ := ih hmem
          subst part
          refine ⟨?_, List.cons_subset_cons c hsub⟩
          simp [hslash, Ne.symm hc]
        · have hmem : part ∈ rest.splitOn '/' := by simp [hsplit, hmore]
          obtain ⟨hslash, hsub⟩ := ih hmem
          exact ⟨hslash, List.subset_cons_of_subset _ hsub⟩

theorem mem_slashParts {text part : List Char} (hmem : part ∈ slashParts text) :
    part ≠ [] ∧ '/' ∉ part ∧ part ⊆ text := by
  obtain ⟨hsplit, hne⟩ := List.mem_filter.mp hmem
  exact ⟨by simpa using hne, mem_splitOn_slash hsplit⟩

/-! ## What a target says to the routes -/

namespace Target

/-- A target up to its first `?`. -/
def path (target : String) : List Char :=
  target.toList.takeWhile (· ≠ '?')

def pieces (target : String) : List String :=
  (slashParts (path target)).map String.ofList

def Trailing (target : String) : Prop :=
  (path target).getLast? = some '/'

theorem splitTarget_fst (text : List Char) :
    (splitTarget text).1 = text.takeWhile (· ≠ '?') := by
  induction text with
  | nil => rfl
  | cons c rest ih =>
      by_cases hc : c = '?'
      · simp [splitTarget, hc]
      · simp [splitTarget, hc, ih]

/-- The cut takes away one question mark and nothing else. -/
theorem append_splitTarget (text : List Char) :
    (splitTarget text).1 ++
      (splitTarget text).2.elim [] (fun query => '?' :: query) = text := by
  induction text with
  | nil => rfl
  | cons c rest ih =>
      by_cases hc : c = '?'
      · simp [splitTarget, hc]
      · simp [splitTarget, hc, ih]

theorem toList_ofTarget (target : String) :
    (Path.ofTarget target).text.toList = path target := by
  simp [Path.ofTarget, splitTarget_fst, path]

theorem question_not_mem_path (target : String) : '?' ∉ path target := by
  intro hmem
  simpa using List.mem_takeWhile_imp hmem

/-- What is left of a target is not cut again. -/
theorem ofTarget_text (target : String) :
    Path.ofTarget (Path.ofTarget target).text = Path.ofTarget target := by
  rw [Path.mk.injEq, ← String.toList_inj, toList_ofTarget, path,
    toList_ofTarget, path, List.takeWhile_takeWhile]
  simp

end Target

def Path.texts (path : Path) : List String := path.pieces.map Piece.text

theorem Path.texts_eq (path : Path) :
    path.texts = (slashParts path.text.toList).map String.ofList := by
  rw [← spans_map_fst]
  simp [Path.texts, Path.pieces]

namespace Target

theorem texts_ofTarget (target : String) :
    (Path.ofTarget target).texts = pieces target := by
  rw [Path.texts_eq, toList_ofTarget]
  rfl

theorem trailing_ofTarget (target : String) :
    (Path.ofTarget target).Trailing ↔ Trailing target := by
  unfold Path.Trailing Trailing
  rw [toList_ofTarget]

/-- No piece is empty, and none holds a slash or a question mark. -/
theorem isPiece_of_mem_pieces {target piece : String}
    (hmem : piece ∈ pieces target) :
    IsPiece piece ∧ '?' ∉ piece.toList := by
  obtain ⟨part, hpart, rfl⟩ := List.mem_map.mp hmem
  obtain ⟨hne, hslash, hsub⟩ := mem_slashParts hpart
  refine ⟨⟨?_, by simpa using hslash⟩, ?_⟩
  · intro hempty
    have hlist := congrArg String.toList hempty
    simp [hne] at hlist
  · intro hquery
    exact question_not_mem_path target (hsub (by simpa using hquery))

end Target

/-! ## Writing targets -/

/-- Each text after a slash of its own. -/
def slashed (texts : List String) : List Char :=
  texts.flatMap fun text => '/' :: text.toList

theorem slashParts_piece_append {text : String} (hpiece : IsPiece text)
    {rest : List Char} (hrest : rest = [] ∨ rest.head? = some '/') :
    slashParts (text.toList ++ rest) = text.toList :: slashParts rest := by
  have hne : text.toList ≠ [] := by
    intro hempty
    exact hpiece.1 (String.toList_eq_nil_iff.mp hempty)
  have htext := slashParts_of_not_mem hne hpiece.2
  rcases hrest with hnil | hslash
  · subst rest
    simp [htext]
  · obtain ⟨after, rfl⟩ : ∃ after, rest = '/' :: after := by
      cases rest with
      | nil => simp at hslash
      | cons c after => exact ⟨after, by simpa using hslash⟩
    rw [slashParts_append_slash, slashParts_slash_cons, htext]
    rfl

theorem slashed_append_eq_nil_or_head? (texts : List String)
    {rest : List Char} (hrest : rest = [] ∨ rest.head? = some '/') :
    slashed texts ++ rest = [] ∨ (slashed texts ++ rest).head? = some '/' := by
  cases texts with
  | nil => simpa [slashed] using hrest
  | cons text texts => simp [slashed]

/-- Pieces can be read back from a path in which each stands after a slash,
with or without a slash at the end. -/
theorem slashParts_slashed_append {texts : List String}
    (hpieces : ∀ text ∈ texts, IsPiece text)
    {rest : List Char} (hrest : rest = [] ∨ rest.head? = some '/') :
    slashParts (slashed texts ++ rest) =
      texts.map String.toList ++ slashParts rest := by
  induction texts with
  | nil => simp [slashed]
  | cons text texts ih =>
      have htail := ih fun other hmem =>
        hpieces other (List.mem_cons_of_mem _ hmem)
      have hshape : slashed (text :: texts) ++ rest =
          '/' :: (text.toList ++ (slashed texts ++ rest)) := by
        simp [slashed]
      rw [hshape, slashParts_slash_cons,
        slashParts_piece_append (hpieces text List.mem_cons_self)
          (slashed_append_eq_nil_or_head? texts hrest), htail]
      rfl

namespace Target

def ofPieces (texts : List String) : String :=
  String.ofList (slashed texts)

/-- The same with a slash at the end. -/
def ofPiecesSlash (texts : List String) : String :=
  String.ofList (slashed texts ++ ['/'])

section

variable {texts : List String}

theorem query_notMem_slashed (hpieces : ∀ text ∈ texts, '?' ∉ text.toList) :
    '?' ∉ slashed texts := by
  intro hmem
  obtain ⟨text, htext, hc⟩ := List.mem_flatMap.mp hmem
  rcases List.mem_cons.mp hc with hslash | hchar
  · contradiction
  · exact hpieces text htext hchar

theorem path_ofList {chars : List Char} (hquery : '?' ∉ chars) :
    path (String.ofList chars) = chars := by
  unfold path
  rw [String.toList_ofList, List.takeWhile_eq_self_iff]
  intro c hmem
  have hne : c ≠ '?' := fun h => hquery (h ▸ hmem)
  simpa using hne

theorem pieces_ofPieces
    (hpieces : ∀ text ∈ texts, IsPiece text ∧ '?' ∉ text.toList) :
    pieces (ofPieces texts) = texts := by
  have hquery := query_notMem_slashed fun text hmem => (hpieces text hmem).2
  have hparts : slashParts (slashed texts) = texts.map String.toList := by
    simpa using slashParts_slashed_append
      (fun text hmem => (hpieces text hmem).1) (Or.inl rfl)
  rw [pieces, ofPieces, path_ofList hquery, hparts]
  simp

theorem path_ofPiecesSlash (hpieces : ∀ text ∈ texts, '?' ∉ text.toList) :
    path (ofPiecesSlash texts) = slashed texts ++ ['/'] := by
  apply path_ofList
  have hquery := query_notMem_slashed hpieces
  simp [hquery]

theorem pieces_ofPiecesSlash
    (hpieces : ∀ text ∈ texts, IsPiece text ∧ '?' ∉ text.toList) :
    pieces (ofPiecesSlash texts) = texts := by
  have hparts : slashParts (slashed texts ++ ['/']) =
      texts.map String.toList := by
    have hslash : ['/'].head? = some '/' := rfl
    simpa using slashParts_slashed_append
      (fun text hmem => (hpieces text hmem).1) (Or.inr hslash)
  rw [pieces, path_ofPiecesSlash fun text hmem => (hpieces text hmem).2, hparts]
  simp

theorem trailing_ofPiecesSlash (hpieces : ∀ text ∈ texts, '?' ∉ text.toList) :
    Trailing (ofPiecesSlash texts) := by
  rw [Trailing, path_ofPiecesSlash hpieces]
  simp

end

end Target

end Dispatch
