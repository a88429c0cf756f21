import Dispatch.Proofs.RouteTable.Captured
import Dispatch.Proofs.RouteTable.Strict
import Dispatch.Proofs.Trie.Growth
import Mathlib.Tactic

/-!
# Registration is local

A route that is registered last belongs to one family, and there it is selected
for a path or what was selected before is selected still.  The other families
stay as they are, so the answer of a lookup is the one from before or the new
route.  What is selected takes the path, so the requests that the new pattern
does not match keep their route, and with it their captures.
-/

namespace Dispatch
namespace RouteTable

variable {α : Type}

section

variable {table : RouteTable α} {pattern : Pattern} {value : α}
  {method : Method} {target : String} {captures : Captures}

theorem Consistent.onlyNew_answer (hconsistent : table.Consistent)
    (hcompiled : pattern.Compiled) (value : α) (method : Method) (path : Path) :
    OnlyNew ⟨pattern.segments, table.routes.size⟩ (table.answer method path)
      ((table.push pattern value).answer method path) := by
  apply OnlyNew.findSome?
  intro group _
  rw [family_push, hconsistent.families]
  split_ifs
  · exact MethodRoutes.onlyNew_select_insert
      (hconsistent.compiled_insertions group) hcompiled path
  · exact .refl _ _

/-- What one more route can change in what is found. -/
theorem Consistent.onlyNew_route? (hconsistent : table.Consistent)
    (hcompiled : pattern.Compiled) (value : α) (method : Method)
    (target : String) (captures : Captures) :
    OnlyNew ⟨table.routes.size, pattern, value⟩
      (table.lookup method target captures).1.route?
      ((table.push pattern value).lookup method target captures).1.route? := by
  have hpushed : (table.push pattern value).Consistent :=
    hconsistent.push hcompiled
  rcases hconsistent.onlyNew_answer hcompiled value method
      (Path.ofTarget target) with hsame | hnew
  · -- the claim leads to the same place in both lists of routes
    left
    rw [route?_lookup, route?_lookup, hsame]
    cases hanswer : table.answer method (Path.ofTarget target) with
    | none => rfl
    | some claim =>
        obtain ⟨route, hroute, rfl, _⟩ :=
          hconsistent.exists_route_of_answer hanswer
        dsimp only [Option.bind_some]
        rw [hconsistent.getElem?_id hroute,
          hpushed.getElem?_id (mem_push.mpr (Or.inl hroute))]
  · right
    rw [Lookup.route?_eq_some, hpushed.lookup_eq_found_iff]
    exact ⟨mem_push.mpr (Or.inr rfl), hnew⟩

/-- Lookups that find the same route, or none, leave the same captures. -/
theorem Consistent.lookup_snd_agrees {other : RouteTable α}
    (hconsistent : table.Consistent) (hother : other.Consistent)
    (hcounted : captures.Counted) (hdecode : other.decode = table.decode)
    (hroute : (other.lookup method target captures).1.route? =
      (table.lookup method target captures).1.route?) :
    (other.lookup method target captures).2.Agrees
      (table.lookup method target captures).2 := by
  cases hfound : (table.lookup method target captures).1.route? with
  | none =>
      have hleft := hother.lookup_snd_of_refused hcounted (hroute.trans hfound)
      have hright := hconsistent.lookup_snd_of_refused hcounted hfound
      exact hleft.trans hright.symm
  | some route =>
      have hleft := hother.lookup_snd_of_found hcounted
        (Lookup.route?_eq_some.mp (hroute.trans hfound))
      have hright := hconsistent.lookup_snd_of_found hcounted
        (Lookup.route?_eq_some.mp hfound)
      rw [hdecode] at hleft
      exact hleft.trans hright.symm

/-- The new route is found for requests of its pattern only. -/
theorem Consistent.mem_requests_of_found (hconsistent : table.Consistent)
    (hcompiled : pattern.Compiled) {route : Route α}
    (hfound : ((table.push pattern value).lookup method target captures).1 =
      .found route) (hid : route.id = table.routes.size) :
    (method, target) ∈ pattern.requests := by
  have hpushed : (table.push pattern value).Consistent :=
    hconsistent.push hcompiled
  obtain ⟨hroute, haccepts, _, before, after, horder, _⟩ :=
    hpushed.of_found hfound
  have hpattern : route.pattern = pattern := by
    rcases mem_push.mp hroute with hold | hnew
    · have hlt := hconsistent.id_lt_size hold
      exact (Nat.lt_irrefl _ (hid ▸ hlt)).elim
    · rw [hnew]
  have hmethod : route.pattern.method ∈ lookupOrder method := by
    simp [horder]
  rw [hpattern] at haccepts hmethod
  exact (Pattern.mem_requests_iff hcompiled).mpr
    ⟨mem_lookupOrder.mp hmethod, haccepts⟩

end

/-- A successful registration leaves every request its route, or gives it the
new one, and the new one goes to requests of its pattern only.  All other
requests keep their route and their captures. -/
theorem lookup_insert (policy : ConflictPolicy) (decode : Bool)
    (calls : List (Call α)) {pattern : Pattern} (hcompiled : pattern.Compiled)
    {value : α} {next : RouteTable α} {id : RouteId}
    (hinsert : (ofCalls policy decode calls).insert pattern value =
      .ok (next, id))
    (method : Method) (target : String) {captures : Captures}
    (hreachable : captures.Reachable) :
    let before := (ofCalls policy decode calls).lookup method target captures
    let after := next.lookup method target captures
    (∀ route, before.1 = .found route →
        after.1 = .found route ∨ after.1 = .found ⟨id, pattern, value⟩) ∧
      (before.1.route? = none →
        ∀ route, after.1 = .found route → route = ⟨id, pattern, value⟩) ∧
      (∀ route, after.1 = .found route → route.id = id →
        (method, target) ∈ pattern.requests) ∧
      ((method, target) ∉ pattern.requests →
        after.1.route? = before.1.route? ∧
          after.2.entries = before.2.entries ∧
          after.2.size = before.2.size ∧
          ∀ name, after.2.get name = before.2.get name) := by
  intro before after
  have hconsistent := consistent_ofCalls policy decode calls
  obtain ⟨rfl, rfl, _⟩ := insert_ok hinsert
  have honly := hconsistent.onlyNew_route? hcompiled value method target captures
  have hmatches : ∀ route, after.1 = .found route →
      route.id = (ofCalls policy decode calls).routes.size →
        (method, target) ∈ pattern.requests := by
    intro route hfound hid
    exact hconsistent.mem_requests_of_found hcompiled hfound hid
  refine ⟨?_, ?_, hmatches, ?_⟩
  · intro route hfound
    rcases honly with hsame | hnew
    · left
      rw [← Lookup.route?_eq_some] at hfound ⊢
      exact hsame.trans hfound
    · exact Or.inr (Lookup.route?_eq_some.mp hnew)
  · intro hrefused route hfound
    rw [← Lookup.route?_eq_some] at hfound
    rcases honly with hsame | hnew
    · have hnone : after.1.route? = none := hsame.trans hrefused
      rw [hfound] at hnone
      contradiction
    · exact Option.some.inj (hfound.symm.trans hnew)
  · intro hunmatched
    have hsame : after.1.route? = before.1.route? := by
      rcases honly with hsame | hnew
      · exact hsame
      · exact (hunmatched
          (hmatches _ (Lookup.route?_eq_some.mp hnew) rfl)).elim
    have hagrees : after.2.Agrees before.2 :=
      hconsistent.lookup_snd_agrees (hconsistent.push hcompiled)
        hreachable.counted push_decode hsame
    exact ⟨hsame, hagrees.entries, hagrees.size, hagrees.get⟩

def archiveCalls : List (Call Nat) :=
  [.add (some .get) "/*path" 0, .add none "/files/*rest" 1]

def archivePattern : Pattern :=
  ⟨"/files/:name/old", some .get,
    [.literal "files", .param "name", .literal "old"]⟩

/-- The new branch is searched first and given up, after its name has been
captured. -/
theorem lookup_insert_archiveCalls :
    ∃ next : RouteTable Nat,
      archivePattern.Compiled ∧
      (ofCalls .firstWins true archiveCalls).insert archivePattern 2 =
        .ok (next, 2) ∧
      Captures.empty.Reachable ∧
      (Method.get, "/files/a%20b/new/") ∉ archivePattern.requests ∧
      (next.lookup .get "/files/a%20b/new/" .empty).2.get "path" =
        ((ofCalls .firstWins true archiveCalls).lookup .get
          "/files/a%20b/new/" .empty).2.get "path" := by
  have hcompiled : archivePattern.Compiled :=
    ⟨"/files/:name/old", some .get, by decide⟩
  have hinsert : (ofCalls .firstWins true archiveCalls).insert archivePattern 2 =
      .ok ((ofCalls .firstWins true archiveCalls).push archivePattern 2, 2) :=
    rfl
  have hunmatched :
      (Method.get, "/files/a%20b/new/") ∉ archivePattern.requests := by
    have hpieces : Target.pieces "/files/a%20b/new/" =
        ["files", "a%20b", "new"] := by
      decide
    rw [Pattern.mem_requests_iff hcompiled]
    intro hserves
    have haccepts := hserves.2
    unfold Pattern.Accepts at haccepts
    rw [hpieces] at haccepts
    simp [archivePattern] at haccepts
  have hlocal := lookup_insert .firstWins true archiveCalls hcompiled hinsert
    .get "/files/a%20b/new/" .empty
  exact ⟨_, hcompiled, hinsert, .empty, hunmatched,
    (hlocal.2.2.2 hunmatched).2.2.2 "path"⟩

end RouteTable
end Dispatch
