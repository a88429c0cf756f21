import Dispatch.Proofs.Chain.Order
import Mathlib.Tactic

/-!
# Short circuits

A step that returns without calling for the next one cuts the chain short, but
only for itself.  The steps outside of it are still active, and they share its
cursor: one that calls again, in a run that is not halted, enters the step
behind the one that did not call.  That is the only way to get there.

The proof is by induction on the course of the run.  While a step is innermost
and has not called, no step behind it was entered; when it has returned, it is
not active, and so whoever enters the next step stands before it.
-/

namespace Dispatch

variable {ε σ : Type}

namespace Course

variable {length : Nat} {Moves : Scope ε σ → Scope ε σ → Prop}
  {notes : List (Note ε σ)} {cursor : Nat} {active : List Nat}
  {scope : Scope ε σ}

/-! ## Active steps -/

/-- Active steps were entered one inside the other. -/
theorem pairwise_active
    (hcourse : Course length Moves notes cursor active scope) :
    (cursor :: active).Pairwise (· > ·) := by
  induction hcourse with
  | first => simp
  | idle _ _ _ ih => exact ih
  | enter _ _ _ _ ih =>
      refine List.pairwise_cons.mpr ⟨?_, ih⟩
      intro inner hmem
      rcases List.mem_cons.mp hmem with hself | hbelow
      · omega
      · have hlt := List.rel_of_pairwise_cons ih hbelow
        omega
  | finish _ _ ih => exact ih.sublist ((List.sublist_cons_self _ _).cons_cons _)
  | panic => exact List.pairwise_singleton _ _

/-- A step that waits for another has called for it. -/
theorem called_of_mem_tail
    (hcourse : Course length Moves notes cursor active scope) {waiting : Nat}
    (hwaiting : waiting ∈ active.tail) :
    ∃ note ∈ notes, note.index = waiting ∧ note.turn = .called := by
  induction hcourse with
  | first | panic => simp at hwaiting
  | idle _ _ _ ih =>
      obtain ⟨note, hmem, hnote⟩ := ih hwaiting
      exact ⟨note, List.mem_append_left _ hmem, hnote⟩
  | finish _ _ ih =>
      obtain ⟨note, hmem, hnote⟩ := ih (List.mem_of_mem_tail hwaiting)
      exact ⟨note, List.mem_append_left _ hmem, hnote⟩
  | enter _ _ _ _ ih =>
      rcases List.mem_cons.mp hwaiting with rfl | hbelow
      · exact ⟨_, List.mem_append_right _ List.mem_cons_self, rfl, rfl⟩
      · obtain ⟨note, hmem, hnote⟩ := ih hbelow
        exact ⟨note, List.mem_append_left _ hmem, hnote⟩

/-- Nothing behind the innermost step was entered if that did not call. -/
theorem cursor_eq_of_silent
    (hcourse : Course length Moves notes cursor active scope) {index : Nat}
    (hindex : active.head? = some index)
    (hsilent : ∀ note ∈ notes, note.index = index → note.turn ≠ .called) :
    cursor = index + 1 := by
  induction hcourse with
  | first => simp_all
  | idle =>
      obtain rfl := Option.some.inj hindex
      exact absurd rfl (hsilent _ List.mem_concat_self rfl)
  | enter =>
      obtain rfl := Option.some.inj hindex
      rfl
  | finish hcourse =>
      obtain ⟨note, hmem, hnote, hcalled⟩ :=
        hcourse.called_of_mem_tail (List.mem_of_mem_head? hindex)
      exact absurd hcalled (hsilent note (List.mem_append_left _ hmem) hnote)
  | panic => simp at hindex

/-- A step that returned is not active. -/
theorem not_mem_active_of_returned
    (hcourse : Course length Moves notes cursor active scope) {note : Note ε σ}
    (hmem : note ∈ notes) (hturn : note.turn = .returned) :
    note.index < cursor ∧ note.index ∉ active := by
  induction hcourse with
  | first => simp_all
  | idle _ _ _ ih =>
      rcases List.mem_append.mp hmem with hold | hnew
      · exact ih hold
      · simp_all
  | @enter _ cursor _ _ _ _ _ _ _ _ ih =>
      rcases List.mem_append.mp hmem with hold | hnew
      · obtain ⟨hlt, hended⟩ := ih hold
        have hother : note.index ≠ cursor := Nat.ne_of_lt hlt
        exact ⟨Nat.lt_succ_of_lt hlt,
          List.not_mem_cons_of_ne_of_not_mem hother hended⟩
      · simp only [List.mem_cons, List.not_mem_nil, or_false] at hnew
        rcases hnew with rfl | rfl <;> contradiction
  | finish hcourse _ ih =>
      rcases List.mem_append.mp hmem with hold | hnew
      · obtain ⟨hlt, hended⟩ := ih hold
        exact ⟨hlt, fun hactive => hended (List.mem_cons_of_mem _ hactive)⟩
      · obtain rfl := List.mem_singleton.mp hnew
        obtain ⟨hlt, hbelow⟩ := List.pairwise_cons.mp hcourse.pairwise_active
        refine ⟨hlt _ List.mem_cons_self, fun hactive => ?_⟩
        exact Nat.lt_irrefl _ (List.rel_of_pairwise_cons hbelow hactive)
  | panic _ _ ih =>
      rcases List.mem_append.mp hmem with hold | hnew
      · exact ⟨(ih hold).1, List.not_mem_nil⟩
      · simp_all

/-- The innermost step stands before one that returned, if nothing was entered
behind that one. -/
theorem caller_lt_of_returned {caller : Nat} {below : List Nat}
    (hcourse : Course length Moves notes cursor (caller :: below) scope)
    {note : Note ε σ} (hmem : note ∈ notes) (hturn : note.turn = .returned)
    (hlast : cursor = note.index + 1) : caller < note.index := by
  obtain ⟨_, hended⟩ := hcourse.not_mem_active_of_returned hmem hturn
  have hentered : caller < cursor :=
    List.rel_of_pairwise_cons hcourse.pairwise_active List.mem_cons_self
  have hother : note.index ≠ caller := List.ne_of_not_mem_cons hended
  omega

/-! ## Behind a step that did not call -/

theorem split_concat {α : Type} {list before after : List α} {a last : α}
    (hsplit : list ++ [last] = before ++ a :: after) :
    (after = [] ∧ list = before ∧ last = a) ∨
      ∃ rest, after = rest ++ [last] ∧ list = before ++ a :: rest := by
  rcases List.eq_nil_or_concat after with rfl | ⟨rest, final, rfl⟩
  · obtain ⟨hlist, hlast⟩ := List.append_inj' hsplit rfl
    exact Or.inl ⟨rfl, hlist, List.head_eq_of_cons_eq hlast⟩
  · rw [List.concat_eq_append, ← List.cons_append, ← List.append_assoc] at hsplit
    obtain ⟨hlist, hlast⟩ := List.append_inj' hsplit rfl
    obtain rfl := List.head_eq_of_cons_eq hlast
    exact Or.inr ⟨rest, List.concat_eq_append, hlist⟩

theorem entered_behind_iff
    (hcourse : Course length Moves notes cursor active scope)
    {before after : List (Note ε σ)} {index : Nat} {final : Scope ε σ}
    (hnotes : notes = before ++ ⟨index, .returned, final⟩ :: after)
    (hsilent : ∀ note ∈ before, note.index = index → note.turn ≠ .called) :
    index + 1 < cursor ↔ index + 1 < length ∧
      ∃ note ∈ after, note.turn = .called ∧ note.index < index ∧
        ¬ note.scope.exchange.Halted := by
  induction hcourse generalizing after with
  | first =>
      have hmem : (⟨index, .returned, final⟩ : Note ε σ) ∈
          before ++ ⟨index, .returned, final⟩ :: after := by simp
      simp [← hnotes] at hmem
  | @idle _ cursor _ _ _ scope _ _ hidle ih =>
      rcases split_concat hnotes with ⟨_, _, hlast⟩ | ⟨rest, rfl, hbefore⟩
      · simp at hlast
      · have hold := ih hbefore
        constructor
        · intro hbehind
          obtain ⟨hlength, note, hmem, hnote⟩ := hold.mp hbehind
          exact ⟨hlength, note, List.mem_append_left _ hmem, hnote⟩
        · intro ⟨hlength, note, hmem, hnote⟩
          rcases List.mem_append.mp hmem with hrest | hlast
          · exact hold.mpr ⟨hlength, note, hrest, hnote⟩
          · -- a call that is not halted and enters nothing is past the end
            obtain rfl := List.mem_singleton.mp hlast
            have hend : ¬ cursor < length := fun hlt => hnote.2.2 (hidle hlt)
            omega
  | @enter notes cursor caller active _ scope hcourse _ hlength hgoing ih =>
      have hconcat : (notes ++ [⟨caller, .called, scope⟩]) ++
          [⟨cursor, .entered, scope⟩] =
            before ++ ⟨index, .returned, final⟩ :: after := by
        simpa using hnotes
      rcases split_concat hconcat with ⟨_, _, hlast⟩ | ⟨upto, rfl, hupto⟩
      · simp at hlast
      rcases split_concat hupto with ⟨_, _, hlast⟩ | ⟨rest, rfl, hbefore⟩
      · simp at hlast
      have hreturned : (⟨index, .returned, final⟩ : Note ε σ) ∈ notes := by
        simp [hbefore]
      have hlt : index < cursor :=
        (hcourse.not_mem_active_of_returned hreturned rfl).1
      refine ⟨fun _ => ⟨by omega, ?_⟩, fun _ => by omega⟩
      by_cases hnext : cursor = index + 1
      · -- this call enters the step behind the one that did not call
        have hbehind := hcourse.caller_lt_of_returned hreturned rfl hnext
        exact ⟨⟨caller, .called, scope⟩, by simp, rfl, hbehind, hgoing⟩
      · obtain ⟨_, note, hmem, hnote⟩ := (ih hbefore).mp (by omega)
        exact ⟨note, by simp [hmem], hnote⟩
  | finish hcourse _ ih =>
      rcases split_concat hnotes with ⟨rfl, rfl, hlast⟩ | ⟨rest, rfl, hbefore⟩
      · -- the return itself: nothing behind the step was entered so far
        have hindex := congrArg Note.index hlast
        have hcursor := hcourse.cursor_eq_of_silent (congrArg some hindex) hsilent
        simp [hcursor]
      · simpa using ih hbefore
  | panic _ _ ih =>
      rcases split_concat hnotes with ⟨_, _, hlast⟩ | ⟨rest, rfl, hbefore⟩
      · simp at hlast
      · simpa using ih hbefore

end Course

namespace Chain

/-- A step that did not call for the next one is passed exactly if a step before
it calls again, after its return, and the run is not halted then. -/
theorem entered_behind_observe (chain : Chain ε σ)
    (hstepwise : ∀ handler ∈ chain.handlers, handler.Stepwise)
    (context : Context ε σ) (outside : σ) {before after : List (Note ε σ)}
    {index : Nat} {final : Scope ε σ}
    (hnotes : (chain.observe context.exchange outside).outside.notes =
      before ++ ⟨index, .returned, final⟩ :: after)
    (hsilent : ∀ note ∈ before, note.index = index → note.turn ≠ .called) :
    let observed := chain.observe context.exchange outside
    observed.Shows (context.run outside chain) ∧
      ((∃ step ∈ enteredSteps observed.outside.notes, index < step) ↔
        index + 1 < chain.length ∧
          ∃ note ∈ after, note.turn = .called ∧ note.index < index ∧
            ¬ note.scope.exchange.Halted) := by
  intro observed
  refine ⟨context.observe_shows outside chain, ?_⟩
  rcases Nat.eq_zero_or_pos chain.length with hzero | hpos
  · have hnone :=
      (observe_of_length_eq_zero hzero context.exchange outside).1
    simp [hnotes] at hnone
  · obtain ⟨active, scope, hcourse⟩ :=
      course_observe hstepwise hpos context.exchange outside
    rw [← hcourse.entered_behind_iff hnotes hsilent, hcourse.enteredSteps_eq]
    constructor
    · intro ⟨step, hmem, hlt⟩
      have hstep := List.mem_range.mp hmem
      omega
    · intro hbehind
      exact ⟨index + 1, List.mem_range.mpr hbehind, Nat.lt_succ_self index⟩

/-- A gate that does nothing, and does not call. -/
def shut : Chain Unit Unit := gated (pure ())

theorem stepwise_shut : ∀ handler ∈ shut.handlers, handler.Stepwise :=
  within_gated (fun _ => trivial) fun _ _ => trivial

theorem notes_shut : ∃ scope, (shut.observe .blank ()).outside.notes =
    [⟨0, .entered, scope⟩, ⟨0, .called, scope⟩, ⟨1, .entered, scope⟩] ++
      ⟨1, .returned, scope⟩ ::
        [⟨0, .called, scope⟩, ⟨2, .entered, scope⟩, ⟨2, .returned, scope⟩,
          ⟨0, .returned, scope⟩] ∧ ¬ scope.exchange.Halted :=
  ⟨⟨.blank, ()⟩, rfl, by decide⟩

theorem entered_behind_observe_shut :
    (∀ handler ∈ shut.handlers, handler.Stepwise) ∧
      ∃ step ∈ enteredSteps (shut.observe .blank ()).outside.notes, 1 < step := by
  obtain ⟨scope, hnotes, hgoing⟩ := notes_shut
  have hsilent : ∀ note ∈ [(⟨0, .entered, scope⟩ : Note Unit Unit),
      ⟨0, .called, scope⟩, ⟨1, .entered, scope⟩],
        note.index = 1 → note.turn ≠ .called := by simp
  have hagain := (entered_behind_observe shut stepwise_shut .blank () hnotes
    hsilent).2
  refine ⟨stepwise_shut, hagain.mpr ⟨by decide, ⟨0, .called, scope⟩, ?_⟩⟩
  simp [hgoing]

/-- The step in the middle returns without a call, and the one behind it is
entered all the same. -/
theorem entered_behind_silent_step :
    (∀ handler ∈ shut.handlers, handler.Stepwise) ∧
      ∃ before after final,
        (shut.observe .blank ()).outside.notes =
            before ++ ⟨1, .returned, final⟩ :: after ∧
          (∀ note ∈ before, note.index = 1 → note.turn ≠ .called) ∧
          2 ∈ enteredSteps (shut.observe .blank ()).outside.notes := by
  obtain ⟨scope, hnotes, _⟩ := notes_shut
  refine ⟨stepwise_shut, _, _, scope, hnotes, by simp, ?_⟩
  rw [hnotes]
  simp [enteredSteps]

end Chain
end Dispatch
