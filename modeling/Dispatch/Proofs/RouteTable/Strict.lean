import Dispatch.Proofs.RequestSets
import Dispatch.Proofs.RouteTable.Lookup
import Mathlib.Tactic

/-!
# The routes of a strict table

The requests of a pattern are those for which a table that holds it alone finds
its route.  For plain patterns the verdict of `compareTo` says how these sets
relate.  A strict table refuses a route whose verdict against an earlier one is
that they are equal or overlap, so two of its routes are disjoint or one of them
is strictly more specific.
-/

namespace Dispatch
namespace Pattern

/-! ## A pattern alone -/

def alone (pattern : Pattern) : RouteTable Unit :=
  (RouteTable.empty .strict).push pattern ()

theorem insert_empty (pattern : Pattern) :
    (RouteTable.empty .strict).insert pattern () = .ok (pattern.alone, 0) :=
  rfl

/-- The requests that a pattern matches. -/
def requests (pattern : Pattern) : Set (Method × String) :=
  {request |
    ∃ route, (pattern.alone.lookup request.1 request.2 .empty).1 = .found route}

theorem mem_requests_iff {pattern : Pattern} (hcompiled : pattern.Compiled)
    {method : Method} {target : String} :
    (method, target) ∈ pattern.requests ↔ pattern.Serves method target := by
  have hconsistent : pattern.alone.Consistent :=
    (RouteTable.consistent_empty .strict true).push hcompiled
  have hroutes : ∀ route, route ∈ pattern.alone.routes ↔ route = ⟨0, pattern, ()⟩ := by
    intro route
    simp [alone, RouteTable.mem_push, RouteTable.empty]
  refine hconsistent.exists_found_iff.trans ?_
  constructor
  · rintro ⟨route, hroute, hserves⟩
    obtain rfl := (hroutes route).mp hroute
    exact hserves
  · intro hserves
    exact ⟨_, (hroutes _).mpr rfl, hserves⟩

def Plain (pattern : Pattern) : Prop :=
  ∀ segment ∈ pattern.segments, segment.IsPlain

instance (pattern : Pattern) : Decidable pattern.Plain :=
  inferInstanceAs (Decidable (∀ _ ∈ _, _))

theorem Plain.plainPath {pattern : Pattern} (hplain : pattern.Plain)
    (hcompiled : pattern.Compiled) : PlainPath pattern.segments :=
  hcompiled.wellPlaced.plainPath hplain

theorem requests_eq_preimage {pattern : Pattern} (hplain : pattern.Plain)
    (hcompiled : pattern.Compiled) :
    pattern.requests = Set.preimage requestParts pattern.matched := by
  rw [requestParts_matched (hplain.plainPath hcompiled)]
  ext ⟨method, target⟩
  exact mem_requests_iff hcompiled

theorem requests_nonempty {pattern : Pattern} (hplain : pattern.Plain)
    (hcompiled : pattern.Compiled) : pattern.requests.Nonempty := by
  have hmatched : pattern.matched.Nonempty :=
    (methodsAnswered_nonempty pattern.method).prod
      (hplain.plainPath hcompiled).piecesTaken_nonempty
  rw [requests_eq_preimage hplain hcompiled]
  exact hmatched.preimage' (matched_subset_range pattern)

/-- The verdict on two plain patterns is the one that holds of their
requests. -/
theorem compareTo_iff_holds {a b : Pattern} (ha : a.Compiled)
    (hb : b.Compiled) (haplain : a.Plain) (hbplain : b.Plain)
    (verdict : Specificity) :
    a.compareTo b = verdict ↔ verdict.Holds a.requests b.requests := by
  have hholds : (a.compareTo b).Holds a.requests b.requests := by
    rw [requests_eq_preimage haplain ha, requests_eq_preimage hbplain hb,
      Specificity.holds_preimage_iff (matched_subset_range a)
        (matched_subset_range b)]
    exact compareTo_holds_matched (haplain.plainPath ha) (hbplain.plainPath hb)
  exact Specificity.eq_iff_holds (requests_nonempty haplain ha)
    (requests_nonempty hbplain hb) hholds

end Pattern

/-! ## Strict tables -/

namespace RouteTable

variable {α : Type} {table : RouteTable α}

/-- No route conflicts with an earlier one. -/
def Unambiguous (table : RouteTable α) : Prop :=
  ∀ first ∈ table.routes, ∀ second ∈ table.routes, first.id < second.id →
    ¬second.pattern.Conflicts first.pattern

theorem Unambiguous.push (hunambiguous : table.Unambiguous)
    (hconsistent : table.Consistent) {pattern : Pattern} {value : α}
    (hfree : table.conflicting pattern = []) :
    (table.push pattern value).Unambiguous := by
  intro first hfirst second hsecond hlt
  rcases mem_push.mp hfirst with hfirst | rfl
  · rcases mem_push.mp hsecond with hsecond | rfl
    · exact hunambiguous first hfirst second hsecond hlt
    · intro hconflict
      have hmem : first ∈ table.conflicting pattern := by
        simpa [conflicting, hfirst] using hconflict
      rw [hfree] at hmem
      contradiction
  · rcases mem_push.mp hsecond with hsecond | rfl
    · have hbound := hconsistent.id_lt_size hsecond
      exact (Nat.lt_asymm hlt hbound).elim
    · exact (Nat.lt_irrefl _ hlt).elim

theorem apply_policy (table : RouteTable α) (call : Call α) :
    (table.apply call).policy = table.policy := by
  rcases apply_cases table call with hsame | ⟨pattern, value, _, _, hpush⟩
  · rw [hsame]
  · rw [hpush, push_policy]

theorem ofCalls_policy (policy : ConflictPolicy) (decode : Bool)
    (calls : List (Call α)) : (ofCalls policy decode calls).policy = policy := by
  induction calls using List.reverseRecOn with
  | nil => rfl
  | append_singleton calls call ih =>
      rw [ofCalls_concat, apply_policy, ih]

theorem unambiguous_ofCalls (decode : Bool) (calls : List (Call α)) :
    (ofCalls .strict decode calls).Unambiguous := by
  induction calls using List.reverseRecOn with
  | nil =>
      intro first hfirst
      simp [ofCalls] at hfirst
  | append_singleton calls call ih =>
      have hconsistent := consistent_ofCalls .strict decode calls
      have hpolicy := ofCalls_policy .strict decode calls
      rw [ofCalls_concat]
      rcases apply_cases (ofCalls .strict decode calls) call with
        hsame | ⟨pattern, value, _, hfree, hpush⟩
      · rw [hsame]
        exact ih
      · rw [hpush]
        exact ih.push hconsistent (hfree hpolicy)

/-- Of two plain patterns that share a request and do not conflict, one is
strictly more specific. -/
theorem ssubset_or_ssubset {a b : Pattern} (ha : a.Compiled) (hb : b.Compiled)
    (haplain : a.Plain) (hbplain : b.Plain) (hfree : ¬a.Conflicts b)
    (hshared : (a.requests ∩ b.requests).Nonempty) :
    a.requests ⊂ b.requests ∨ b.requests ⊂ a.requests := by
  have hholds := Pattern.compareTo_iff_holds ha hb haplain hbplain
  cases hverdict : a.compareTo b with
  | equivalent => exact (hfree (Or.inl hverdict)).elim
  | overlaps => exact (hfree (Or.inr hverdict)).elim
  | moreGeneral => exact Or.inr ((hholds _).mp hverdict)
  | moreSpecific => exact Or.inl ((hholds _).mp hverdict)
  | disjoint =>
      have hempty : a.requests ∩ b.requests = ∅ := (hholds _).mp hverdict
      rw [hempty] at hshared
      exact (Set.not_nonempty_empty hshared).elim

/-- Each verdict on two plain patterns is given exactly if it holds of the
requests that they match.  So of two such routes of a strict table that share a
request, one matches strictly less than the other. -/
theorem compareTo_exact {a b : Pattern} (ha : a.Compiled) (hb : b.Compiled)
    (haplain : a.Plain) (hbplain : b.Plain) :
    (∀ verdict, a.compareTo b = verdict ↔
        verdict.Holds a.requests b.requests) ∧
      ∀ {α : Type} (decode : Bool) (calls : List (Call α)),
        ∀ first ∈ (ofCalls .strict decode calls).routes,
          ∀ second ∈ (ofCalls .strict decode calls).routes,
            first.id ≠ second.id → first.pattern = a → second.pattern = b →
              (a.requests ∩ b.requests).Nonempty →
                a.requests ⊂ b.requests ∨ b.requests ⊂ a.requests := by
  refine ⟨Pattern.compareTo_iff_holds ha hb haplain hbplain, ?_⟩
  rintro α decode calls first hfirst second hsecond hne rfl rfl hshared
  have hunambiguous := unambiguous_ofCalls decode calls
  rcases Nat.lt_or_gt_of_ne hne with hlt | hlt
  · rw [Set.inter_comm] at hshared
    have hfree := hunambiguous first hfirst second hsecond hlt
    exact (ssubset_or_ssubset hb ha hbplain haplain hfree hshared).symm
  · have hfree := hunambiguous second hsecond first hfirst hlt
    exact ssubset_or_ssubset ha hb haplain hbplain hfree hshared

def anyUser : Pattern :=
  ⟨"/users/:id", some .get, [.literal "users", .param "id"]⟩

def ownUser : Pattern :=
  ⟨"/users/me", some .get, [.literal "users", .literal "me"]⟩

theorem compareTo_exact_users :
    (anyUser.Compiled ∧ ownUser.Compiled ∧ anyUser.Plain ∧ ownUser.Plain) ∧
      ownUser.requests ⊂ anyUser.requests := by
  have hany : anyUser.Compiled := ⟨"/users/:id", some .get, by decide⟩
  have hown : ownUser.Compiled := ⟨"/users/me", some .get, by decide⟩
  have hanyPlain : anyUser.Plain := by decide
  have hownPlain : ownUser.Plain := by decide
  have hverdict : anyUser.compareTo ownUser = .moreGeneral := by decide
  exact ⟨⟨hany, hown, hanyPlain, hownPlain⟩,
    ((compareTo_exact hany hown hanyPlain hownPlain).1 .moreGeneral).mp hverdict⟩

end RouteTable
end Dispatch
