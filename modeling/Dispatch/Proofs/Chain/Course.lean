import Dispatch.Proofs.Chain.Watched
import Mathlib.Tactic

/-!
# The course of a chain

Handlers that leave the running chain alone, by running no other chain and
resetting nothing, take turns on one cursor.  `Course` says what such a run may
look like, note by note: which steps are active, how many were entered, and
what a call for the next step does.  It is a stack machine, and knows nothing
of programs.

Every watched run is a course.  The proof is by induction on how much of the
chain is left and, for one step, on its program: a call hands the stack over to
a step with less left behind it, and gets it back as it was.
-/

namespace Dispatch

variable {ε σ : Type}

/-! ## Handlers that step -/

/-- A program that only computes and calls for the next step.  Control has come
to it with the scope `start`; whenever it has control, it hands it on with a
scope that `Moves` allows. -/
def Program.Within (Moves : Scope ε σ → Scope ε σ → Prop) :
    Scope ε σ → Program ε σ → Prop
  | start, .done scope | start, .panic scope _ => Moves start scope
  | start, .next scope resume =>
    Moves start scope ∧ ∀ cursor back, (resume cursor back).Within Moves back
  | _, .run .. | _, .reset .. => False

namespace Handler

def Within (handler : Handler ε σ) (Moves : Scope ε σ → Scope ε σ → Prop) :
    Prop :=
  ∀ cursor scope, (handler.body cursor scope).Within Moves scope

/-- A handler that runs no chain of its own and resets nothing. -/
def Stepwise (handler : Handler ε σ) : Prop := handler.Within fun _ _ => True

/-- A stepwise handler that never takes halting back. -/
def KeepsHalted (handler : Handler ε σ) : Prop :=
  handler.Within fun start scope =>
    start.exchange.Halted → scope.exchange.Halted

end Handler

/-! ## Courses -/

/-- `Course length Moves notes cursor active scope`: a chain of `length` steps
may have run so far as `notes` tell.  `cursor` steps were entered, `active` are
those that have not ended, the innermost first, and control is at `scope`. -/
inductive Course (length : Nat) (Moves : Scope ε σ → Scope ε σ → Prop) :
    List (Note ε σ) → Nat → List Nat → Scope ε σ → Prop where
  | first (scope : Scope ε σ) (hlength : 0 < length) :
      Course length Moves [⟨0, .entered, scope⟩] 1 [0] scope
  /-- A call finds the chain exhausted or halted. -/
  | idle {notes : List (Note ε σ)} {cursor index : Nat} {active : List Nat}
      {start scope : Scope ε σ}
      (hcourse : Course length Moves notes cursor (index :: active) start)
      (hmoves : Moves start scope)
      (hidle : cursor < length → scope.exchange.Halted) :
      Course length Moves (notes ++ [⟨index, .called, scope⟩]) cursor
        (index :: active) scope
  | enter {notes : List (Note ε σ)} {cursor index : Nat} {active : List Nat}
      {start scope : Scope ε σ}
      (hcourse : Course length Moves notes cursor (index :: active) start)
      (hmoves : Moves start scope) (hlength : cursor < length)
      (hgoing : ¬ scope.exchange.Halted) :
      Course length Moves
        (notes ++ [⟨index, .called, scope⟩, ⟨cursor, .entered, scope⟩])
        (cursor + 1) (cursor :: index :: active) scope
  | finish {notes : List (Note ε σ)} {cursor index : Nat} {active : List Nat}
      {start scope : Scope ε σ}
      (hcourse : Course length Moves notes cursor (index :: active) start)
      (hmoves : Moves start scope) :
      Course length Moves (notes ++ [⟨index, .returned, scope⟩]) cursor active
        scope
  /-- A panic ends every active step. -/
  | panic {notes : List (Note ε σ)} {cursor index : Nat} {active : List Nat}
      {start scope : Scope ε σ}
      (hcourse : Course length Moves notes cursor (index :: active) start)
      (hmoves : Moves start scope) :
      Course length Moves (notes ++ [⟨index, .panicked, scope⟩]) cursor []
        scope

namespace Course

variable {length : Nat} {Moves : Scope ε σ → Scope ε σ → Prop}
  {notes : List (Note ε σ)} {cursor index : Nat} {active : List Nat}
  {scope : Scope ε σ}

theorem cursor_pos (hcourse : Course length Moves notes cursor active scope) :
    0 < cursor := by
  induction hcourse with
  | first => exact Nat.one_pos
  | idle _ _ _ ih | finish _ _ ih | panic _ _ ih => exact ih
  | enter => exact Nat.succ_pos _

theorem cursor_le (hcourse : Course length Moves notes cursor active scope) :
    cursor ≤ length := by
  induction hcourse with
  | first _ hlength => exact hlength
  | idle _ _ _ ih | finish _ _ ih | panic _ _ ih => exact ih
  | enter _ _ hlength _ _ => exact hlength

/-! ## Every watched run is a course -/

/-- A run of a step, begun when `cursor` steps were entered: it takes a course,
at the end of which, unless it panicked, the steps below it are active. -/
structure Ends (length : Nat) (Moves : Scope ε σ → Scope ε σ → Prop)
    (step : Nat → Nat → Scope ε (Noted ε σ) → Program ε (Noted ε σ))
    (cursor : Nat) (below : List Nat)
    (ended : Outcome ε (Noted ε σ) × Pending ε (Noted ε σ)) : Prop where
  le : cursor ≤ ended.1.cursor
  pending : ended.2 = .rest length step ended.1.cursor
  course : ∃ active, Course length Moves ended.1.scope.outside.notes
    ended.1.cursor active ended.1.scope.plain ∧
      (ended.1.panic = none → active = below)

variable {step : Nat → Nat → Scope ε (Noted ε σ) → Program ε (Noted ε σ)}
  {body : Nat → Nat → Scope ε σ → Program ε σ}

theorem Ends.after {ended : Outcome ε (Noted ε σ) × Pending ε (Noted ε σ)}
    {resume : Nat → Scope ε (Noted ε σ) → Program ε (Noted ε σ)}
    (hended : Ends length Moves step cursor (index :: active) ended)
    (hresume : Course length Moves ended.1.scope.outside.notes ended.1.cursor
        (index :: active) ended.1.scope.plain →
      Ends length Moves step ended.1.cursor active
        ((resume ended.1.cursor ended.1.scope).exec ended.1.cursor
          (.rest length step ended.1.cursor))) :
    Ends length Moves step cursor active (Program.after ended resume) := by
  obtain ⟨left, hcourse, hleft⟩ := hended.course
  unfold Program.after
  cases hpanic : ended.1.panic with
  | some message =>
      refine ⟨hended.le, hended.pending, left, hcourse, ?_⟩
      intro hnone
      simp [hpanic] at hnone
  | none =>
      obtain rfl := hleft hpanic
      have hrest := hresume hcourse
      dsimp only
      rw [hended.pending]
      exact { hrest with le := hended.le.trans hrest.le }

/-- A call for the next step, which may be entered and then ends well. -/
theorem ends_called {sent : Scope ε σ}
    (hstep : ∀ index < length, ∀ cursor scope, step index cursor scope =
      (body index cursor scope.plain).watched index
        (scope.outside.notes ++ [⟨index, .entered, scope.plain⟩]))
    (hcourse : Course length Moves notes cursor (index :: active) scope)
    (hmoves : Moves scope sent)
    (hentered : cursor < length → ¬ sent.exchange.Halted →
      Ends length Moves step (cursor + 1) (index :: active)
        (((body cursor (cursor + 1) sent).watched cursor
          (notes ++ [⟨index, .called, sent⟩, ⟨cursor, .entered, sent⟩])).exec
            (cursor + 1) (.rest length step (cursor + 1)))) :
    Ends length Moves step cursor (index :: active)
      ((Pending.rest length step cursor).next cursor
        (sent.noted (notes ++ [⟨index, .called, sent⟩]))) := by
  by_cases hidle : cursor < length → sent.exchange.Halted
  · have hsame : cursor < length →
        (sent.noted (notes ++ [⟨index, .called, sent⟩])).exchange.Halted := hidle
    rw [Pending.next_rest_of_idle hcourse.cursor_pos hsame]
    exact ⟨le_rfl, rfl, _, hcourse.idle hmoves hidle, fun _ => rfl⟩
  · obtain ⟨hlength, hgoing⟩ := Classical.not_imp.mp hidle
    have hends := hentered hlength hgoing
    have hsame : 0 < cursor →
        ¬ (sent.noted (notes ++ [⟨index, .called, sent⟩])).exchange.Halted :=
      fun _ => hgoing
    rw [Pending.next_rest_of_lt hlength hsame, hstep cursor hlength,
      Scope.plain_noted, Scope.notes_noted, List.append_assoc]
    exact { hends with le := Nat.le_of_succ_le hends.le }

theorem ends_exec
    (hstep : ∀ index < length, ∀ cursor scope, step index cursor scope =
      (body index cursor scope.plain).watched index
        (scope.outside.notes ++ [⟨index, .entered, scope.plain⟩]))
    (hbody : ∀ index < length, ∀ cursor scope,
      (body index cursor scope).Within Moves scope)
    {program : Program ε σ} (hwithin : program.Within Moves scope)
    (hcourse : Course length Moves notes cursor (index :: active) scope) :
    Ends length Moves step cursor active
      ((program.watched index notes).exec cursor (.rest length step cursor)) := by
  induction hleft : length - cursor using Nat.strong_induction_on
    generalizing program notes cursor index active scope with
  | _ left outer =>
    subst hleft
    induction program generalizing notes scope with
    | done last =>
        exact ⟨le_rfl, rfl, active, hcourse.finish hwithin, fun _ => rfl⟩
    | panic last message =>
        refine ⟨le_rfl, rfl, [], hcourse.panic hwithin, ?_⟩
        intro hnone
        contradiction
    | next sent resume inner =>
        obtain ⟨hmoves, hresume⟩ := hwithin
        have hcalled := ends_called hstep hcourse hmoves fun hlength hgoing =>
          outer (length - (cursor + 1)) (by omega) (hbody cursor hlength _ _)
            (hcourse.enter hmoves hlength hgoing) rfl
        rw [Program.watched, Program.exec_next]
        apply hcalled.after
        intro hback
        rcases hcalled.le.lt_or_eq with hmore | hsame
        · -- some steps were entered in between, so less is left
          have hle := hback.cursor_le
          exact outer _ (by omega) (hresume _ _) hback rfl
        · rw [← hsame] at hback ⊢
          exact inner _ _ (hresume _ _) hback
    | run | reset => exact hwithin.elim

end Course

namespace Chain

theorem within_invoke {chain : Chain ε σ}
    {Moves : Scope ε σ → Scope ε σ → Prop}
    (hwithin : ∀ handler ∈ chain.handlers, handler.Within Moves) {index : Nat}
    (hindex : index < chain.length) (cursor : Nat) (scope : Scope ε σ) :
    (chain.invoke index cursor scope).Within Moves scope := by
  rw [length_eq] at hindex
  rw [invoke_eq, List.getElem?_eq_getElem hindex]
  exact hwithin _ (List.getElem_mem hindex) cursor scope

theorem course_observe {chain : Chain ε σ}
    {Moves : Scope ε σ → Scope ε σ → Prop}
    (hwithin : ∀ handler ∈ chain.handlers, handler.Within Moves)
    (hpos : 0 < chain.length) (exchange : Exchange ε) (outside : σ) :
    ∃ active scope, Course chain.length Moves
      (chain.observe exchange outside).outside.notes
      (chain.observe exchange outside).context.cursor active scope := by
  have hends := Course.ends_exec (fun _ => chain.invoke_watched)
    (fun _ => within_invoke hwithin) (within_invoke hwithin hpos 1 _)
    (Course.first { exchange, outside } hpos)
  obtain ⟨active, hcourse, _⟩ := hends.course
  unfold observe
  rw [Context.run_eq, chain.length_watched,
    Pending.next_rest_of_lt hpos fun hlt => absurd hlt (Nat.lt_irrefl 0),
    chain.invoke_watched hpos]
  exact ⟨active, _, hcourse⟩

theorem observe_of_length_eq_zero {chain : Chain ε σ}
    (hzero : chain.length = 0) (exchange : Exchange ε) (outside : σ) :
    (chain.observe exchange outside).outside.notes = [] ∧
      (chain.observe exchange outside).context.cursor = 0 := by
  unfold observe
  rw [Context.run_eq, chain.length_watched, hzero, Pending.rest_of_le le_rfl]
  exact ⟨rfl, rfl⟩

end Chain

/-! ## What a course tells -/

/-- The steps that were entered, in order. -/
def enteredSteps (notes : List (Note ε σ)) : List Nat :=
  (notes.filter (·.turn = .entered)).map Note.index

/-- A run in which halting is never taken back, as far as notes tell. -/
def StaysHalted (notes : List (Note ε σ)) : Prop :=
  notes.Pairwise fun earlier later =>
    earlier.scope.exchange.Halted → later.scope.exchange.Halted

/-- Once a run is halted, no step is entered. -/
def EntersNoneOnceHalted (notes : List (Note ε σ)) : Prop :=
  notes.Pairwise fun earlier later =>
    earlier.scope.exchange.Halted → later.turn ≠ .entered

namespace Course

variable {length : Nat} {Moves : Scope ε σ → Scope ε σ → Prop}
  {notes : List (Note ε σ)} {cursor : Nat} {active : List Nat}
  {scope : Scope ε σ}

theorem enteredSteps_eq
    (hcourse : Course length Moves notes cursor active scope) :
    enteredSteps notes = List.range cursor := by
  induction hcourse with
  | first => rfl
  | idle _ _ _ ih | finish _ _ ih | panic _ _ ih =>
      simpa [enteredSteps] using ih
  | enter _ _ _ _ ih =>
      rw [List.range_succ, ← ih]
      simp [enteredSteps]

theorem entersNoneOnceHalted
    (hcourse : Course length Moves notes cursor active scope)
    (hstays : StaysHalted notes) : EntersNoneOnceHalted notes := by
  induction hcourse with
  | first => exact List.pairwise_singleton _ _
  | idle _ _ _ ih | finish _ _ ih | panic _ _ ih =>
      obtain ⟨hbefore, _, _⟩ := List.pairwise_append.mp hstays
      refine List.pairwise_append.mpr
        ⟨ih hbefore, List.pairwise_singleton _ _, ?_⟩
      simp
  | enter _ _ _ hgoing ih =>
      obtain ⟨hbefore, _, hlater⟩ := List.pairwise_append.mp hstays
      refine List.pairwise_append.mpr ⟨ih hbefore, by simp [hgoing], ?_⟩
      intro earlier hmem later _ hhalted
      exact absurd (hlater earlier hmem _ List.mem_cons_self hhalted) hgoing

theorem staysHalted_concat {start : Scope ε σ}
    (hbefore : StaysHalted notes ∧
      ∀ note ∈ notes, note.scope.exchange.Halted → start.exchange.Halted)
    (hmoves : start.exchange.Halted → scope.exchange.Halted) (index : Nat)
    (turn : Turn) :
    StaysHalted (notes ++ [⟨index, turn, scope⟩]) ∧
      ∀ note ∈ notes ++ [⟨index, turn, scope⟩],
        note.scope.exchange.Halted → scope.exchange.Halted := by
  obtain ⟨hstays, hstart⟩ := hbefore
  have hall : ∀ note ∈ notes,
      note.scope.exchange.Halted → scope.exchange.Halted :=
    fun note hmem hhalted => hmoves (hstart note hmem hhalted)
  constructor
  · refine List.pairwise_append.mpr
      ⟨hstays, List.pairwise_singleton _ _, ?_⟩
    simpa using hall
  · simpa [or_imp, forall_and] using hall

theorem staysHalted
    (hcourse : Course length
      (fun start scope => start.exchange.Halted → scope.exchange.Halted)
      notes cursor active scope) :
    StaysHalted notes ∧
      ∀ note ∈ notes, note.scope.exchange.Halted → scope.exchange.Halted := by
  induction hcourse with
  | first => simp [StaysHalted]
  | idle _ hmoves _ ih | finish _ hmoves ih | panic _ hmoves ih =>
      exact staysHalted_concat ih hmoves _ _
  | @enter _ cursor index _ _ scope _ hmoves _ _ ih =>
      have hcalled := staysHalted_concat ih hmoves index .called
      have hentered := staysHalted_concat hcalled id cursor .entered
      simpa using hentered

end Course

end Dispatch
