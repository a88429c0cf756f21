import Dispatch.Pattern
import Dispatch.Proofs.Pieces
import Mathlib.Tactic

/-!
# The grammar of templates

`Spells` lists the ways to write each kind of segment, without the prefixes
and suffixes that the reader strips one after another.  A piece that spells no
segment has either stray braces or a missing name, so reading a piece is
decided by three cases that exclude each other.

On a list of pieces the reader keeps the names so far and looks ahead for the
end.  Both are replaced by what they stand for: the names that the pieces
before a place capture, and the place itself.  A template is refused for what
is wrong with its first faulty piece, and among the faults of one piece the
form comes before the place and the place before the name.
-/

namespace Dispatch

/-! ## Pieces -/

def BraceFree (text : List Char) : Prop :=
  '{' ∉ text ∧ '}' ∉ text

theorem any_isBrace_eq_false {text : List Char} :
    text.any Segment.isBrace = false ↔ BraceFree text := by
  simp only [List.any_eq_false, Segment.isBrace, BraceFree]
  constructor
  · intro hnone
    exact ⟨fun hmem => by simpa using hnone _ hmem,
      fun hmem => by simpa using hnone _ hmem⟩
  · rintro ⟨hopen, hclose⟩ c hmem
    have hleft : c ≠ '{' := fun h => hopen (h ▸ hmem)
    have hright : c ≠ '}' := fun h => hclose (h ▸ hmem)
    simp [hleft, hright]

/-- How a piece of a template stands for a segment. -/
inductive Spells : List Char → Segment → Prop where
  | endAnchor : Spells ['{', '$', '}'] .endAnchor
  | bracedParam {name : List Char} (hname : name ≠ []) (hfree : BraceFree name)
      (hanchor : name ≠ ['$']) (hdots : ¬['.', '.', '.'] <:+ name) :
      Spells ('{' :: (name ++ ['}'])) (.param (String.ofList name))
  | bracedWildcard {name : List Char} (hname : name ≠ [])
      (hfree : BraceFree name) :
      Spells ('{' :: (name ++ ['.', '.', '.'] ++ ['}']))
        (.wildcard (String.ofList name))
  | param {name : List Char} (hname : name ≠ []) (hfree : BraceFree name) :
      Spells (':' :: name) (.param (String.ofList name))
  | anyWildcard : Spells ['*'] (.wildcard "*")
  | wildcard {name : List Char} (hname : name ≠ []) (hfree : BraceFree name) :
      Spells ('*' :: name) (.wildcard (String.ofList name))
  | literal {text : List Char} (hfree : BraceFree text)
      (hcolon : text.head? ≠ some ':') (hstar : text.head? ≠ some '*') :
      Spells text (.literal (String.ofList text))

/-- A piece whose braces do not stand around a text without braces. -/
def Malformed (piece : List Char) : Prop :=
  ¬BraceFree piece ∧
    ∀ inner, BraceFree inner → piece ≠ '{' :: (inner ++ ['}'])

/-- A piece with a place for a name, but no name. -/
def Nameless (piece : List Char) : Prop :=
  piece = [':'] ∨ piece = ['{', '}'] ∨ piece = ['{', '.', '.', '.', '}']

namespace Segment

theorem stripEnd?_append (text ending : List Char) :
    stripEnd? ending (text ++ ending) = some text := by
  simp [stripEnd?]

theorem stripEnd?_of_not_suffix {ending text : List Char}
    (hnot : ¬ending <:+ text) : stripEnd? ending text = none := by
  simp [stripEnd?, hnot]

theorem ofPiece_braced {inner : List Char} (hanchor : inner ≠ ['$']) :
    ofPiece ('{' :: (inner ++ ['}'])) = ofBraced inner := by
  have hne : '{' :: (inner ++ ['}']) ≠ ['{', '$', '}'] := by
    intro h
    have : inner ++ ['}'] = ['$'] ++ ['}'] := (List.cons.inj h).2
    exact hanchor (List.append_cancel_right this)
  unfold ofPiece
  rw [if_neg hne]
  simp only [stripEnd?_append]

theorem ofPiece_of_braceFree (piece : List Char) :
    BraceFree piece →
      ofPiece piece =
        match piece with
        | ':' :: name => named .param name
        | ['*'] => .ok (.wildcard "*")
        | '*' :: name => .ok (.wildcard (String.ofList name))
        | _ => .ok (.literal (String.ofList piece)) := by
  intro hfree
  have hne : piece ≠ ['{', '$', '}'] := by
    rintro rfl
    simp [BraceFree] at hfree
  have hany := any_isBrace_eq_false.mpr hfree
  unfold ofPiece
  rw [if_neg hne]
  split
  · simp [BraceFree] at hfree
  · rw [hany]
    rfl

theorem ofPiece_of_spells {piece : List Char} {segment : Segment}
    (hspells : Spells piece segment) : ofPiece piece = .ok segment := by
  cases hspells with
  | endAnchor => rfl
  | @bracedParam name hname hfree hanchor hdots =>
      have hany := any_isBrace_eq_false.mpr hfree
      have hstrip := stripEnd?_of_not_suffix hdots
      simp [ofPiece_braced hanchor, ofBraced, hany, hstrip, named, hname]
  | @bracedWildcard name hname hfree =>
      have hanchor : name ++ ['.', '.', '.'] ≠ ['$'] := by
        intro h
        simpa using congrArg List.length h
      have hany : (name ++ ['.', '.', '.']).any isBrace = false := by
        simpa [isBrace] using any_isBrace_eq_false.mpr hfree
      simp only [ofPiece_braced hanchor, ofBraced, hany, stripEnd?_append, named,
        hname]
      rfl
  | @param name hname hfree =>
      have hpiece : BraceFree (':' :: name) := by simpa [BraceFree] using hfree
      simp [ofPiece_of_braceFree _ hpiece, named, hname]
  | anyWildcard => rfl
  | @wildcard name hname hfree =>
      have hpiece : BraceFree ('*' :: name) := by simpa [BraceFree] using hfree
      rw [ofPiece_of_braceFree _ hpiece]
      cases name with
      | nil => simp at hname
      | cons c rest => rfl
  | literal hfree hcolon hstar =>
      rw [ofPiece_of_braceFree _ hfree]
      split
      · simp at hcolon
      · simp at hstar
      · simp at hstar
      · rfl

theorem ofPiece_of_malformed {piece : List Char} (hmalformed : Malformed piece) :
    ofPiece piece = .error .malformedBrace := by
  obtain ⟨hbraces, hnot⟩ := hmalformed
  have hany : piece.any isBrace = true := by
    rw [← any_isBrace_eq_false] at hbraces
    simpa using hbraces
  have hne : piece ≠ ['{', '$', '}'] :=
    hnot ['$'] (by simp [BraceFree])
  unfold ofPiece
  rw [if_neg hne]
  split
  · next inner =>
      by_cases hclosed : ['}'] <:+ inner
      · obtain ⟨text, rfl⟩ := hclosed
        have hsome : text.any isBrace = true := by
          by_contra hnone
          rw [Bool.not_eq_true, any_isBrace_eq_false] at hnone
          exact hnot text hnone rfl
        simp [stripEnd?_append, ofBraced, hsome]
      · rw [stripEnd?_of_not_suffix hclosed]
  · simp [hany]

theorem ofPiece_of_nameless {piece : List Char} (hnameless : Nameless piece) :
    ofPiece piece = .error .emptyName := by
  rcases hnameless with rfl | rfl | rfl <;> rfl

theorem spells_or_fault (piece : List Char) :
    (∃ segment, Spells piece segment) ∨ Malformed piece ∨ Nameless piece := by
  by_cases hfree : BraceFree piece
  · cases piece with
    | nil => exact Or.inl ⟨_, .literal hfree (by simp) (by simp)⟩
    | cons c name =>
        have hname : BraceFree name :=
          ⟨fun h => hfree.1 (List.mem_cons_of_mem _ h),
            fun h => hfree.2 (List.mem_cons_of_mem _ h)⟩
        by_cases hcolon : c = ':'
        · subst c
          cases name with
          | nil => exact Or.inr (Or.inr (Or.inl rfl))
          | cons d rest => exact Or.inl ⟨_, .param (by simp) hname⟩
        · by_cases hstar : c = '*'
          · subst c
            cases name with
            | nil => exact Or.inl ⟨_, .anyWildcard⟩
            | cons d rest => exact Or.inl ⟨_, .wildcard (by simp) hname⟩
          · exact Or.inl ⟨_, .literal hfree (by simpa using hcolon)
              (by simpa using hstar)⟩
  · by_cases hbraced : ∃ inner, BraceFree inner ∧
        piece = '{' :: (inner ++ ['}'])
    · obtain ⟨inner, hinner, rfl⟩ := hbraced
      by_cases hdots : ['.', '.', '.'] <:+ inner
      · obtain ⟨name, rfl⟩ := hdots
        cases name with
        | nil => exact Or.inr (Or.inr (Or.inr (Or.inr rfl)))
        | cons c rest =>
            have hname : BraceFree (c :: rest) := by
              simpa [BraceFree] using hinner
            exact Or.inl ⟨_, .bracedWildcard (by simp) hname⟩
      · cases inner with
        | nil => exact Or.inr (Or.inr (Or.inr (Or.inl rfl)))
        | cons c rest =>
            by_cases hanchor : c :: rest = ['$']
            · rw [hanchor]
              exact Or.inl ⟨_, .endAnchor⟩
            · exact Or.inl ⟨_, .bracedParam (by simp) hinner hanchor hdots⟩
    · refine Or.inr (Or.inl ⟨hfree, ?_⟩)
      intro inner hinner hpiece
      exact hbraced ⟨inner, hinner, hpiece⟩

theorem ofPiece_eq_ok_iff {piece : List Char} {segment : Segment} :
    ofPiece piece = .ok segment ↔ Spells piece segment := by
  constructor
  · intro hread
    rcases spells_or_fault piece with
      ⟨other, hspells⟩ | hmalformed | hnameless
    · rw [ofPiece_of_spells hspells] at hread
      obtain rfl := Except.ok.inj hread
      exact hspells
    · rw [ofPiece_of_malformed hmalformed] at hread
      contradiction
    · rw [ofPiece_of_nameless hnameless] at hread
      contradiction
  · exact ofPiece_of_spells

end Segment

theorem Spells.unique {piece : List Char} {first second : Segment}
    (hfirst : Spells piece first) (hsecond : Spells piece second) :
    first = second := by
  rw [← Segment.ofPiece_eq_ok_iff] at hfirst hsecond
  rw [hfirst] at hsecond
  exact Except.ok.inj hsecond

/-! ## Templates -/

/-- The names that pieces capture. -/
def capturedNames (pieces : List (List Char)) : Set String :=
  {name | ∃ piece ∈ pieces, ∃ segment,
    Spells piece segment ∧ segment.captureName? = some name}

/-- What can be wrong with a piece.  The place of a piece is judged only if it
is spelled well, and its name only if the place is right. -/
inductive PieceFault (template : String) (taken : Set String) (last : Prop)
    (piece : List Char) : PatternError → Prop where
  | malformedBrace (hmalformed : Malformed piece) :
      PieceFault template taken last piece
        (.malformedBrace template (String.ofList piece))
  | emptyName (hnameless : Nameless piece) :
      PieceFault template taken last piece (.emptyParamName template)
  | wildcardNotLast {name : String} (hspells : Spells piece (.wildcard name))
      (hmore : ¬last) :
      PieceFault template taken last piece (.wildcardNotLast template)
  | endAnchorNotLast (hspells : Spells piece .endAnchor) (hmore : ¬last) :
      PieceFault template taken last piece (.endAnchorNotLast template)
  | duplicateParam {segment : Segment} {name : String}
      (hspells : Spells piece segment) (hplace : segment.IsFinal → last)
      (hname : segment.captureName? = some name) (htaken : name ∈ taken) :
      PieceFault template taken last piece (.duplicateParam template name)

/-- What is wrong with the piece at a place. -/
def FaultAt (template : String) (pieces : List (List Char)) (index : Nat)
    (error : PatternError) : Prop :=
  ∃ piece, pieces[index]? = some piece ∧
    PieceFault template (capturedNames (pieces.take index))
      (index + 1 = pieces.length) piece error

/-- What is wrong with the first faulty piece from a place on. -/
def FirstFault (template : String) (pieces : List (List Char)) (start : Nat)
    (error : PatternError) : Prop :=
  ∃ index, start ≤ index ∧ FaultAt template pieces index error ∧
    ∀ earlier, start ≤ earlier → earlier < index →
      ∀ other, ¬FaultAt template pieces earlier other

section

variable {template : String} {pieces : List (List Char)} {start : Nat}
  {error first : PatternError}

theorem firstFault_of_faultAt (hfirst : FaultAt template pieces start first) :
    FirstFault template pieces start error ↔
      FaultAt template pieces start error := by
  constructor
  · rintro ⟨index, hle, hfault, hnone⟩
    rcases hle.eq_or_lt with rfl | hlt
    · exact hfault
    · exact (hnone start le_rfl hlt first hfirst).elim
  · intro hfault
    exact ⟨start, le_rfl, hfault, fun earlier hle hlt => by omega⟩

theorem firstFault_of_not_faultAt
    (hnone : ∀ other, ¬FaultAt template pieces start other) :
    FirstFault template pieces start error ↔
      FirstFault template pieces (start + 1) error := by
  constructor
  · rintro ⟨index, hle, hfault, hbefore⟩
    rcases hle.eq_or_lt with rfl | hlt
    · exact (hnone error hfault).elim
    · exact ⟨index, hlt, hfault, fun earlier hstart =>
        hbefore earlier (by omega)⟩
  · rintro ⟨index, hle, hfault, hbefore⟩
    refine ⟨index, by omega, hfault, ?_⟩
    intro earlier hstart hlt
    rcases hstart.eq_or_lt with rfl | hmore
    · exact hnone
    · exact hbefore earlier hmore hlt

end

/-- Wildcards and end anchors stand only at the end. -/
def FinalLast : List Segment → Prop
  | [] => True
  | segment :: rest => (segment.IsFinal → rest = []) ∧ FinalLast rest

namespace Pattern

variable {template : String} {before : List String} {last : Bool}
  {piece : List Char} {segment : Segment} {error : PatternError}

theorem readPiece_eq_ok_iff :
    readPiece template before last piece = .ok segment ↔
      Spells piece segment ∧ (segment.IsFinal → last = true) ∧
        ∀ name, segment.captureName? = some name → name ∉ before := by
  constructor
  · intro hread
    unfold readPiece at hread
    rcases Segment.spells_or_fault piece with
      ⟨found, hspells⟩ | hmalformed | hnameless
    · rw [Segment.ofPiece_of_spells hspells] at hread
      cases found with
      | literal text =>
          obtain rfl := Except.ok.inj hread
          simpa [Segment.IsFinal, Segment.captureName?] using hspells
      | param name =>
          simp only at hread
          split_ifs at hread with htaken
          obtain rfl := Except.ok.inj hread
          simpa [Segment.IsFinal, Segment.captureName?, htaken] using hspells
      | wildcard name =>
          simp only at hread
          split_ifs at hread with hmore htaken
          obtain rfl := Except.ok.inj hread
          simp only [Bool.not_eq_true', Bool.not_eq_false] at hmore
          simpa [Segment.IsFinal, Segment.captureName?, hmore, htaken] using
            hspells
      | endAnchor =>
          simp only at hread
          split_ifs at hread with hmore
          obtain rfl := Except.ok.inj hread
          simp only [Bool.not_eq_true', Bool.not_eq_false] at hmore
          simpa [Segment.IsFinal, Segment.captureName?, hmore] using hspells
    · rw [Segment.ofPiece_of_malformed hmalformed] at hread
      contradiction
    · rw [Segment.ofPiece_of_nameless hnameless] at hread
      contradiction
  · rintro ⟨hspells, hplace, hname⟩
    unfold readPiece
    rw [Segment.ofPiece_of_spells hspells]
    cases segment <;> simp_all [Segment.IsFinal, Segment.captureName?]

theorem readPiece_eq_error_iff :
    readPiece template before last piece = .error error ↔
      PieceFault template {name | name ∈ before} (last = true) piece error := by
  constructor
  · intro hread
    unfold readPiece at hread
    rcases Segment.spells_or_fault piece with
      ⟨segment, hspells⟩ | hmalformed | hnameless
    · rw [Segment.ofPiece_of_spells hspells] at hread
      cases segment with
      | literal text => simp at hread
      | param name =>
          simp only at hread
          split_ifs at hread with htaken
          obtain rfl := Except.error.inj hread
          exact .duplicateParam hspells (by simp [Segment.IsFinal]) rfl htaken
      | wildcard name =>
          simp only at hread
          split_ifs at hread with hmore htaken
          · obtain rfl := Except.error.inj hread
            exact .wildcardNotLast hspells (by simpa using hmore)
          · obtain rfl := Except.error.inj hread
            exact .duplicateParam hspells (fun _ => by simpa using hmore) rfl
              htaken
      | endAnchor =>
          simp only at hread
          split_ifs at hread with hmore
          obtain rfl := Except.error.inj hread
          exact .endAnchorNotLast hspells (by simpa using hmore)
    · rw [Segment.ofPiece_of_malformed hmalformed] at hread
      obtain rfl := Except.error.inj hread
      exact .malformedBrace hmalformed
    · rw [Segment.ofPiece_of_nameless hnameless] at hread
      obtain rfl := Except.error.inj hread
      exact .emptyName hnameless
  · intro hfault
    unfold readPiece
    cases hfault with
    | malformedBrace hmalformed =>
        rw [Segment.ofPiece_of_malformed hmalformed]
    | emptyName hnameless => rw [Segment.ofPiece_of_nameless hnameless]
    | wildcardNotLast hspells hmore =>
        simp [Segment.ofPiece_of_spells hspells, hmore]
    | endAnchorNotLast hspells hmore =>
        simp [Segment.ofPiece_of_spells hspells, hmore]
    | @duplicateParam segment name hspells hplace hname htaken =>
        rw [Segment.ofPiece_of_spells hspells]
        cases segment <;> simp_all [Segment.IsFinal, Segment.captureName?]

theorem readPieces_cons_eq_ok_iff {rest : List (List Char)}
    {segments : List Segment} :
    readPieces template before (piece :: rest) = .ok segments ↔
      ∃ segment others, segments = segment :: others ∧
        readPiece template before rest.isEmpty piece = .ok segment ∧
        readPieces template (before ++ segment.captureName?.toList) rest =
          .ok others := by
  rw [readPieces]
  cases readPiece template before rest.isEmpty piece with
  | error error => simp [bind, Except.bind]
  | ok segment =>
      cases hrest : readPieces template
          (before ++ segment.captureName?.toList) rest with
      | error error => simp [bind, Except.bind, hrest]
      | ok others =>
          simp [bind, Except.bind, pure, Except.pure, hrest, eq_comm]

theorem readPieces_cons_eq_error_iff {rest : List (List Char)} :
    readPieces template before (piece :: rest) = .error error ↔
      readPiece template before rest.isEmpty piece = .error error ∨
        ∃ segment,
          readPiece template before rest.isEmpty piece = .ok segment ∧
          readPieces template (before ++ segment.captureName?.toList) rest =
            .error error := by
  rw [readPieces]
  cases readPiece template before rest.isEmpty piece with
  | error error => simp [bind, Except.bind]
  | ok segment =>
      cases hrest : readPieces template
          (before ++ segment.captureName?.toList) rest with
      | error error => simp [bind, Except.bind, hrest]
      | ok others => simp [bind, Except.bind, pure, Except.pure, hrest]

/-- The names of segments are distinct, and none was given before. -/
def FreshNames (before : List String) (segments : List Segment) : Prop :=
  (segments.filterMap Segment.captureName?).Nodup ∧
    ∀ name ∈ segments.filterMap Segment.captureName?, name ∉ before

theorem freshNames_cons {rest : List Segment} :
    FreshNames before (segment :: rest) ↔
      (∀ name, segment.captureName? = some name → name ∉ before) ∧
        FreshNames (before ++ segment.captureName?.toList) rest := by
  unfold FreshNames
  cases hname : segment.captureName? with
  | none => simp [hname]
  | some name =>
      simp only [List.filterMap_cons, hname, List.nodup_cons,
        List.forall_mem_cons, Option.some.injEq, forall_eq', Option.toList_some,
        List.mem_append, List.mem_singleton]
      constructor
      · rintro ⟨⟨hnot, hnodup⟩, hfirst, hrest⟩
        refine ⟨hfirst, hnodup, ?_⟩
        rintro other hother (hbefore | rfl)
        · exact hrest other hother hbefore
        · exact hnot hother
      · rintro ⟨hfirst, hnodup, hrest⟩
        exact ⟨⟨fun hmem => hrest name hmem (Or.inr rfl), hnodup⟩, hfirst,
          fun other hother hmem => hrest other hother (Or.inl hmem)⟩

theorem readPieces_eq_ok_iff {pieces : List (List Char)}
    {segments : List Segment} :
    readPieces template before pieces = .ok segments ↔
      List.Forall₂ Spells pieces segments ∧ FinalLast segments ∧
        FreshNames before segments := by
  induction pieces generalizing before segments with
  | nil =>
      rw [List.forall₂_nil_left_iff]
      constructor
      · intro hread
        obtain rfl := Except.ok.inj hread
        simp [FinalLast, FreshNames]
      · rintro ⟨rfl, _⟩
        rfl
  | cons piece rest ih =>
      rw [readPieces_cons_eq_ok_iff, List.forall₂_cons_left_iff]
      constructor
      · rintro ⟨segment, others, rfl, hpiece, hrest⟩
        obtain ⟨hspells, hplace, hname⟩ := readPiece_eq_ok_iff.mp hpiece
        obtain ⟨hothers, hfinal, hfresh⟩ := ih.mp hrest
        have hend : segment.IsFinal → others = [] := by
          intro hlast
          have hempty : rest = [] := by simpa using hplace hlast
          subst rest
          simpa using hothers
        exact ⟨⟨segment, others, hspells, hothers, rfl⟩, ⟨hend, hfinal⟩,
          freshNames_cons.mpr ⟨hname, hfresh⟩⟩
      · rintro ⟨⟨segment, others, hspells, hothers, rfl⟩, ⟨hend, hfinal⟩,
          hfresh⟩
        obtain ⟨hname, hfresh⟩ := freshNames_cons.mp hfresh
        have hplace : segment.IsFinal → rest.isEmpty = true := by
          intro hlast
          obtain rfl := hend hlast
          simpa using hothers
        exact ⟨segment, others, rfl,
          readPiece_eq_ok_iff.mpr ⟨hspells, hplace, hname⟩,
          ih.mpr ⟨hothers, hfinal, hfresh⟩⟩

/-! ### The first fault -/

section

variable {done rest : List (List Char)}

theorem capturedNames_concat
    (hnames : capturedNames done = {name | name ∈ before})
    (hspells : Spells piece segment) :
    capturedNames (done ++ [piece]) =
      {name | name ∈ before ++ segment.captureName?.toList} := by
  have hpiece : ∀ name,
      (∃ other, Spells piece other ∧ other.captureName? = some name) ↔
        name ∈ segment.captureName?.toList := by
    intro name
    rw [Option.mem_toList]
    constructor
    · rintro ⟨other, hother, hname⟩
      rw [hspells.unique hother]
      exact hname
    · intro hname
      exact ⟨segment, hspells, hname⟩
  ext name
  have hdone : name ∈ capturedNames done ↔ name ∈ before := by simp [hnames]
  simp only [Set.mem_ofPred_eq, List.mem_append, ← hpiece, ← hdone]
  simp [capturedNames, or_and_right, exists_or]

theorem faultAt_append_iff
    (hnames : capturedNames done = {name | name ∈ before}) :
    FaultAt template (done ++ piece :: rest) done.length error ↔
      readPiece template before rest.isEmpty piece = .error error := by
  rw [readPiece_eq_error_iff, ← hnames]
  unfold FaultAt
  cases rest <;> simp

theorem readPieces_eq_error_iff
    (hnames : capturedNames done = {name | name ∈ before}) :
    readPieces template before rest = .error error ↔
      FirstFault template (done ++ rest) done.length error := by
  induction rest generalizing done before with
  | nil =>
      constructor
      · intro hread
        contradiction
      · rintro ⟨index, hle, ⟨piece, hpiece, _⟩, _⟩
        simp [List.getElem?_eq_none hle] at hpiece
  | cons piece rest ih =>
      rw [readPieces_cons_eq_error_iff]
      cases hread : readPiece template before rest.isEmpty piece with
      | error first =>
          have hfirst : FaultAt template (done ++ piece :: rest) done.length
              first := (faultAt_append_iff hnames).mpr hread
          rw [firstFault_of_faultAt hfirst, faultAt_append_iff hnames, hread]
          simp
      | ok segment =>
          have hnone : ∀ other,
              ¬FaultAt template (done ++ piece :: rest) done.length other := by
            intro other
            rw [faultAt_append_iff hnames, hread]
            simp
          have hspells := (readPiece_eq_ok_iff.mp hread).1
          have hrest := ih (capturedNames_concat hnames hspells)
          rw [List.append_assoc, List.singleton_append, List.length_append,
            List.length_singleton] at hrest
          rw [firstFault_of_not_faultAt hnone, ← hrest]
          simp

end

/-! ### Whole templates -/

/-- What a template is refused for. -/
inductive Refused (template : String) : PatternError → Prop where
  | emptyTemplate (hempty : template = "") : Refused template .emptyTemplate
  | missingLeadingSlash (hne : template ≠ "")
      (hslash : template.toList.head? ≠ some '/') :
      Refused template (.missingLeadingSlash template)
  | piece {error : PatternError} (hslash : template.toList.head? = some '/')
      (hfirst : FirstFault template (slashParts template.toList) 0 error) :
      Refused template error

theorem compile_of_slash (hslash : template.toList.head? = some '/')
    (method : Option Method) :
    compile template method =
      (readPieces template [] (slashParts template.toList)).map
        fun segments => ⟨template, method, segments⟩ := by
  obtain ⟨rest, hlist⟩ := List.head?_eq_some_iff.mp hslash
  unfold compile
  rw [hlist]
  simp only [spans_map_fst, slashParts_slash_cons]
  cases readPieces template [] (slashParts rest) <;> rfl

theorem compile_of_not_slash (hslash : template.toList.head? ≠ some '/')
    (method : Option Method) :
    compile template method =
      .error (if template = "" then .emptyTemplate
        else .missingLeadingSlash template) := by
  have hempty : template = "" ↔ template.toList = [] :=
    String.toList_eq_nil_iff.symm
  unfold compile
  split
  · next hnil => rw [if_pos (hempty.mpr hnil)]
  · next rest hlist => simp [hlist] at hslash
  · next hnil _ => rw [if_neg fun h => hnil (hempty.mp h)]

theorem compile_eq_error_iff {method : Option Method} :
    compile template method = .error error ↔ Refused template error := by
  by_cases hslash : template.toList.head? = some '/'
  · have hnames : capturedNames [] = {name | name ∈ ([] : List String)} := by
      simp [capturedNames]
    have hread : compile template method = .error error ↔
        readPieces template [] (slashParts template.toList) = .error error := by
      rw [compile_of_slash hslash]
      cases readPieces template [] (slashParts template.toList) <;>
        simp [Except.map]
    rw [hread, readPieces_eq_error_iff hnames]
    constructor
    · exact .piece hslash
    · intro hrefused
      cases hrefused with
      | emptyTemplate hempty => simp [hempty] at hslash
      | missingLeadingSlash _ hnot => exact (hnot hslash).elim
      | piece _ hfirst => exact hfirst
  · rw [compile_of_not_slash hslash]
    constructor
    · intro hread
      obtain rfl := Except.error.inj hread
      split_ifs with hempty
      · exact .emptyTemplate hempty
      · exact .missingLeadingSlash hempty hslash
    · intro hrefused
      cases hrefused with
      | emptyTemplate hempty => rw [if_pos hempty]
      | missingLeadingSlash hne _ => rw [if_neg hne]
      | piece hstart _ => exact (hslash hstart).elim

theorem compile_eq_ok_iff {method : Option Method} {pattern : Pattern} :
    compile template method = .ok pattern ↔
      pattern.template = template ∧ pattern.method = method ∧
        template.toList.head? = some '/' ∧
        List.Forall₂ Spells (slashParts template.toList) pattern.segments ∧
        FinalLast pattern.segments ∧ pattern.paramNames.Nodup := by
  by_cases hslash : template.toList.head? = some '/'
  · have hread : compile template method = .ok pattern ↔
        pattern.template = template ∧ pattern.method = method ∧
          readPieces template [] (slashParts template.toList) =
            .ok pattern.segments := by
      obtain ⟨text, own, segments⟩ := pattern
      rw [compile_of_slash hslash]
      cases readPieces template [] (slashParts template.toList) with
      | error error => simp [Except.map]
      | ok found => simp [Except.map, eq_comm]
    rw [hread, readPieces_eq_ok_iff]
    simp [hslash, FreshNames, paramNames]
  · rw [compile_of_not_slash hslash]
    simp [hslash]

end Pattern

/-! ## Writing templates -/

namespace Segment

/-- A segment that some piece stands for. -/
def Writable : Segment → Prop
  | .literal text => IsPiece text ∧ BraceFree text.toList ∧
      text.toList.head? ≠ some ':' ∧ text.toList.head? ≠ some '*'
  | .param name | .wildcard name => IsPiece name ∧ BraceFree name.toList
  | .endAnchor => True

/-- One of the pieces that stand for a segment. -/
def written : Segment → String
  | .literal text => text
  | .param name => ":" ++ name
  | .wildcard name => "*" ++ name
  | .endAnchor => "\x7b$\x7d"

theorem isPiece_append {text name : String} (htext : IsPiece text)
    (hname : IsPiece name) : IsPiece (text ++ name) := by
  simpa [IsPiece, hname.2, htext.1] using htext.2

theorem Writable.isPiece_written {segment : Segment} (h : segment.Writable) :
    IsPiece segment.written := by
  cases segment with
  | literal text => exact h.1
  | param name => exact isPiece_append (by simp [IsPiece]) h.1
  | wildcard name => exact isPiece_append (by simp [IsPiece]) h.1
  | endAnchor => simp [IsPiece, written]

theorem spells_param {name : String} (hne : name ≠ "")
    (hfree : BraceFree name.toList) :
    Spells (':' :: name.toList) (.param name) := by
  simpa using Spells.param (by simpa using hne) hfree

theorem spells_wildcard {name : String} (hne : name ≠ "")
    (hfree : BraceFree name.toList) :
    Spells ('*' :: name.toList) (.wildcard name) := by
  simpa using Spells.wildcard (by simpa using hne) hfree

theorem Writable.spells_written {segment : Segment} (h : segment.Writable) :
    Spells segment.written.toList segment := by
  cases segment with
  | literal text =>
      obtain ⟨_, hfree, hcolon, hstar⟩ := h
      simpa [written] using Spells.literal hfree hcolon hstar
  | param name => simpa [written] using spells_param h.1.1 h.2
  | wildcard name => simpa [written] using spells_wildcard h.1.1 h.2
  | endAnchor => simpa [written] using Spells.endAnchor

theorem writable_of_spells {piece : List Char} {segment : Segment}
    (hspells : Spells piece segment) (hne : piece ≠ []) (hslash : '/' ∉ piece) :
    segment.Writable := by
  cases hspells with
  | endAnchor => trivial
  | bracedParam hname hfree =>
      simp only [List.mem_cons, List.mem_append, not_or] at hslash
      exact ⟨⟨by simpa using hname, by simpa using hslash.2.1⟩,
        by simpa using hfree⟩
  | bracedWildcard hname hfree =>
      simp only [List.mem_cons, List.mem_append, not_or] at hslash
      exact ⟨⟨by simpa using hname, by simpa using hslash.2.1.1⟩,
        by simpa using hfree⟩
  | param hname hfree =>
      simp only [List.mem_cons, not_or] at hslash
      exact ⟨⟨by simpa using hname, by simpa using hslash.2⟩,
        by simpa using hfree⟩
  | anyWildcard => simp [Writable, IsPiece, BraceFree]
  | wildcard hname hfree =>
      simp only [List.mem_cons, not_or] at hslash
      exact ⟨⟨by simpa using hname, by simpa using hslash.2⟩,
        by simpa using hfree⟩
  | literal hfree hcolon hstar =>
      exact ⟨⟨by simpa using hne, by simpa using hslash⟩,
        by simpa using hfree, by simpa using hcolon, by simpa using hstar⟩

end Segment

namespace Pattern

theorem forall₂_spells_written {segments : List Segment}
    (hwritable : ∀ segment ∈ segments, segment.Writable) :
    List.Forall₂ Spells
      (slashParts (Target.ofPiecesSlash
        (segments.map Segment.written)).toList) segments := by
  have hpieces : ∀ text ∈ segments.map Segment.written, IsPiece text := by
    intro text hmem
    obtain ⟨segment, hsegment, rfl⟩ := List.mem_map.mp hmem
    exact (hwritable segment hsegment).isPiece_written
  have hparts : slashParts (slashed (segments.map Segment.written) ++ ['/']) =
      segments.map fun segment => segment.written.toList := by
    have hslash : ['/'].head? = some '/' := rfl
    simpa [Function.comp_def] using
      slashParts_slashed_append hpieces (Or.inr hslash)
  rw [Target.ofPiecesSlash, String.toList_ofList, hparts,
    List.forall₂_map_left_iff, List.forall₂_same]
  intro segment hmem
  exact (hwritable segment hmem).spells_written

theorem writable_of_forall₂ {text : List Char} {segments : List Segment}
    (hspells : List.Forall₂ Spells (slashParts text) segments) :
    ∀ segment ∈ segments, segment.Writable := by
  intro segment hmem
  obtain ⟨piece, hpiece, hsegment⟩ :
      ∃ piece ∈ slashParts text, Spells piece segment := by
    obtain ⟨index, hindex, rfl⟩ := List.getElem_of_mem hmem
    have hlength := hspells.length_eq
    have hat : index < (slashParts text).length := by omega
    exact ⟨_, List.getElem_mem hat, hspells.get hat hindex⟩
  obtain ⟨hne, hslash, _⟩ := mem_slashParts hpiece
  exact Segment.writable_of_spells hsegment hne hslash

theorem exists_compile_iff {method : Option Method} {segments : List Segment} :
    (∃ template, compile template method = .ok ⟨template, method, segments⟩) ↔
      (∀ segment ∈ segments, segment.Writable) ∧ FinalLast segments ∧
        (segments.filterMap Segment.captureName?).Nodup := by
  constructor
  · rintro ⟨template, hcompile⟩
    obtain ⟨_, _, _, hspells, hlast, hnames⟩ := compile_eq_ok_iff.mp hcompile
    exact ⟨writable_of_forall₂ hspells, hlast, hnames⟩
  · rintro ⟨hwritable, hlast, hnames⟩
    refine ⟨Target.ofPiecesSlash (segments.map Segment.written), ?_⟩
    have hslash : (Target.ofPiecesSlash
        (segments.map Segment.written)).toList.head? = some '/' := by
      rw [Target.ofPiecesSlash, String.toList_ofList]
      cases segments <;> simp [slashed]
    exact compile_eq_ok_iff.mpr ⟨rfl, rfl, hslash,
      forall₂_spells_written hwritable, hlast, hnames⟩

/-- Compiling accepts the templates of the grammar, refuses each other one for
its first fault, and reaches every list of segments that the grammar allows. -/
theorem compile_iff_grammar (method : Option Method) :
    (∀ template pattern, compile template method = .ok pattern ↔
      pattern.template = template ∧ pattern.method = method ∧
        template.toList.head? = some '/' ∧
        List.Forall₂ Spells (slashParts template.toList) pattern.segments ∧
        FinalLast pattern.segments ∧ pattern.paramNames.Nodup) ∧
    (∀ template error, compile template method = .error error ↔
      Refused template error) ∧
    ∀ segments : List Segment,
      (∃ template,
        compile template method = .ok ⟨template, method, segments⟩) ↔
      (∀ segment ∈ segments, segment.Writable) ∧ FinalLast segments ∧
        (segments.filterMap Segment.captureName?).Nodup :=
  ⟨fun _ _ => compile_eq_ok_iff, fun _ _ => compile_eq_error_iff,
    fun _ => exists_compile_iff⟩

/-- The place of a wildcard is judged before its name. -/
example : compile "/:id/*id/end" none =
    .error (.wildcardNotLast "/:id/*id/end") := by
  decide

end Pattern

end Dispatch
