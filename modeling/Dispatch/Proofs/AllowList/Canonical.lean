import Dispatch.AllowList
import Dispatch.Proofs.AllowList
import Dispatch.Proofs.Text.Split
import Mathlib.Data.String.Basic
import Mathlib.Tactic

/-!
# Allow lists are canonical

An allow list is a set in a form of its own: its methods are in the strict order
of their names, so a list that was put together by any calls depends on nothing
but the set of methods that went into it.  The order of the calls and their
number do not matter, and neither does it when HEAD came, if GET came at all.
-/

namespace Dispatch
namespace AllowList

/-- What is done to an allow list.  To collect methods is to begin anew. -/
inductive Call where
  | insert (method : Method)
  | clear
  | collect (methods : List Method)
  deriving DecidableEq

def apply (allow : AllowList) : Call → AllowList
  | .insert method => allow.insert method
  | .clear => empty
  | .collect methods => ofList methods

def ofCalls (calls : List Call) : AllowList :=
  calls.foldl apply empty

/-- The methods inserted since the list was last cleared, after one more call. -/
def insertedBy (inserted : List Method) : Call → List Method
  | .insert method => inserted ++ [method]
  | .clear => []
  | .collect methods => methods

def inserted (calls : List Call) : List Method :=
  calls.foldl insertedBy []

/-- In the strict order of names, as text is compared. -/
def Sorted (methods : List Method) : Prop :=
  methods.Pairwise (·.name < ·.name)

section

variable {allow other : AllowList} {method : Method}
  {methods before after : List Method}

/-! ## The place of a method

Among sorted methods a method is either there already or belongs between those
of smaller and those of greater names, however the place is searched for. -/

theorem place_append
    (hbefore : ∀ smaller ∈ before, smaller.name < method.name)
    (hafter : ∀ greater ∈ after, method.name < greater.name) :
    place method (before ++ after) = before ++ method :: after := by
  induction before with
  | nil =>
      cases after with
      | nil => rfl
      | cons first rest =>
          have hfirst := hafter first List.mem_cons_self
          simp [place, hfirst]
  | cons first rest ih =>
      rw [List.forall_mem_cons] at hbefore
      have hfirst := hbefore.1
      simp only [List.cons_append, place, hfirst.asymm, hfirst.ne', if_false,
        ih hbefore.2]

theorem place_of_mem (hsorted : Sorted methods) (hmem : method ∈ methods) :
    place method methods = methods := by
  induction methods with
  | nil => contradiction
  | cons first rest ih =>
      obtain ⟨hfirst, hrest⟩ := List.pairwise_cons.mp hsorted
      rcases List.mem_cons.mp hmem with rfl | hmem
      · simp [place]
      · have hlt := hfirst method hmem
        simp only [place, hlt.asymm, hlt.ne', if_false, ih hrest hmem]

theorem exists_place (hsorted : Sorted methods) (hmem : method ∉ methods) :
    ∃ before after, methods = before ++ after ∧
      (∀ smaller ∈ before, smaller.name < method.name) ∧
      ∀ greater ∈ after, method.name < greater.name := by
  induction methods with
  | nil => exact ⟨[], [], rfl, by simp, by simp⟩
  | cons first rest ih =>
      obtain ⟨hfirst, hrest⟩ := List.pairwise_cons.mp hsorted
      obtain ⟨hne, hmem⟩ := List.ne_and_not_mem_of_not_mem_cons hmem
      rcases lt_or_gt_of_ne fun hname => hne (Method.ext_name hname)
        with hlt | hgt
      · refine ⟨[], first :: rest, rfl, by simp, ?_⟩
        rw [List.forall_mem_cons]
        exact ⟨hlt, fun greater hgreater => hlt.trans (hfirst greater hgreater)⟩
      · obtain ⟨before, after, rfl, hbefore, hafter⟩ := ih hrest hmem
        refine ⟨first :: before, after, rfl, ?_, hafter⟩
        rw [List.forall_mem_cons]
        exact ⟨hgt, hbefore⟩

theorem sorted_place (hsorted : Sorted methods) :
    Sorted (place method methods) := by
  by_cases hmem : method ∈ methods
  · rwa [place_of_mem hsorted hmem]
  · obtain ⟨before, after, rfl, hbefore, hafter⟩ := exists_place hsorted hmem
    obtain ⟨hsmaller, hgreater, hbetween⟩ := List.pairwise_append.mp hsorted
    rw [place_append hbefore hafter]
    refine List.pairwise_append.mpr
      ⟨hsmaller, List.pairwise_cons.mpr ⟨hafter, hgreater⟩, ?_⟩
    intro smaller hmem
    rw [List.forall_mem_cons]
    exact ⟨hbefore smaller hmem, hbetween smaller hmem⟩

/-! ## The form of a list -/

/-- The list of a set of methods: sorted, and with all of them but HEAD beside
GET. -/
structure Lists (allow : AllowList) (methods : List Method) : Prop where
  sorted : Sorted allow.methods
  mem : ∀ method, method ∈ allow.methods ↔
    method ∈ methods ∧ (method = .head → .get ∉ methods)

theorem lists_empty : empty.Lists [] where
  sorted := List.Pairwise.nil
  mem := by simp [empty]

theorem Lists.insert (hlists : allow.Lists methods) (method : Method) :
    (allow.insert method).Lists (methods ++ [method]) where
  sorted := by
    unfold AllowList.insert
    split_ifs
    · exact hlists.sorted
    · exact sorted_place (hlists.sorted.filter _)
    · exact sorted_place hlists.sorted
  mem _ := mem_insert_of_mem_iff hlists.mem

theorem lists_ofList (methods : List Method) :
    (ofList methods).Lists methods := by
  induction methods using List.reverseRecOn with
  | nil => exact lists_empty
  | append_singleton methods method ih =>
      rw [ofList_concat]
      exact ih.insert method

theorem Lists.apply (hlists : allow.Lists methods) (call : Call) :
    (allow.apply call).Lists (insertedBy methods call) := by
  cases call with
  | insert method => exact hlists.insert method
  | clear => exact lists_empty
  | collect methods => exact lists_ofList methods

theorem lists_ofCalls (calls : List Call) :
    (ofCalls calls).Lists (inserted calls) := by
  induction calls using List.reverseRecOn with
  | nil => exact lists_empty
  | append_singleton calls call ih =>
      simp only [ofCalls, inserted, List.foldl_concat]
      exact ih.apply call

theorem Lists.not_mem_head (hlists : allow.Lists methods)
    (hget : .get ∈ allow.methods) : .head ∉ allow.methods := by
  intro hhead
  have hinserted := ((hlists.mem .get).mp hget).1
  exact ((hlists.mem .head).mp hhead).2 rfl hinserted

theorem Lists.eq {others : List Method} (hlists : allow.Lists methods)
    (hothers : other.Lists others)
    (hsame : ∀ method, method ∈ others ↔ method ∈ methods) : other = allow := by
  have hmem : ∀ method, method ∈ other.methods ↔ method ∈ allow.methods := by
    intro method
    rw [hothers.mem, hlists.mem, hsame, hsame]
  have hirrefl : Std.Irrefl fun a b : Method => a.name < b.name :=
    ⟨fun method => lt_irrefl method.name⟩
  have hmethods : other.methods = allow.methods :=
    List.Pairwise.eq_of_mem_iff hothers.sorted hlists.sorted hmem
  cases other
  cases allow
  exact congrArg AllowList.mk hmethods

/-! ## The header -/

theorem not_mem_comma (method : Method) : ',' ∉ method.name.toList := by
  intro hmem
  have htoken := method.isToken_name
  simp only [isToken, Bool.and_eq_true, List.all_eq_true] at htoken
  exact absurd (htoken.2 ',' hmem) (by decide)

theorem split_headerValue (hne : allow.headerValue ≠ "") :
    (allow.headerValue.split ", ").toList.map String.Slice.copy =
      allow.methods.map Method.name := by
  have hmethods : allow.methods.map Method.name ≠ [] := by
    intro hnil
    apply hne
    rw [headerValue, hnil]
    rfl
  have hcomma : ∀ name ∈ allow.methods.map Method.name,
      ',' ∉ name.toList := by
    simp only [List.forall_mem_map]
    exact fun method _ => not_mem_comma method
  have hseparator : ", ".toList = [',', ' '] := by simp
  exact Text.split_intercalate hseparator hmethods hcomma

theorem ofName?_name (method : Method) :
    Method.ofName? method.name = some method :=
  dif_pos method.isToken_name

end

/-- An allow list is in the strict order of names, holds what was inserted since
it was last cleared, less HEAD beside GET, is the same for all calls that
inserted the same set, and is read back from its header. -/
theorem canonical (calls : List Call) :
    let allow := ofCalls calls
    Sorted allow.methods ∧
      ¬(.get ∈ allow.methods ∧ .head ∈ allow.methods) ∧
      (∀ method, method ∈ allow.methods ↔ method ∈ inserted calls ∧
        (method = .head → .get ∉ inserted calls)) ∧
      (∀ others : List Call,
        (∀ method, method ∈ inserted others ↔ method ∈ inserted calls) →
        ofCalls others = allow ∧
          (ofCalls others).headerValue = allow.headerValue) ∧
      (allow.headerValue ≠ "" →
        (allow.headerValue.split ", ").toList.map
            (fun part => Method.ofName? part.copy) =
          allow.methods.map some) := by
  intro allow
  have hlists := lists_ofCalls calls
  refine ⟨hlists.sorted, fun hboth => hlists.not_mem_head hboth.1 hboth.2,
    hlists.mem, ?_, ?_⟩
  · intro others hsame
    have heq := hlists.eq (lists_ofCalls others) hsame
    exact ⟨heq, congrArg headerValue heq⟩
  · intro hne
    have hparts := split_headerValue hne
    have hread := congrArg (List.map Method.ofName?) hparts
    simpa only [List.map_map, Function.comp_def, ofName?_name] using hread

/-- HEAD before GET, and then after it in a list that was cleared. -/
theorem canonical_of_reordered :
    let calls : List Call := [.insert .head, .insert .post, .insert .get]
    let others : List Call := [.insert .put, .clear, .insert .get,
      .insert .head, .insert .post, .insert .head]
    ofCalls others = ofCalls calls ∧
      ((ofCalls calls).headerValue.split ", ").toList.map
          (fun part => Method.ofName? part.copy) =
        [some .get, some .post] := by
  intro calls others
  obtain ⟨-, -, -, hsame, hread⟩ := canonical calls
  have hinserted : ∀ method,
      method ∈ inserted others ↔ method ∈ inserted calls := by
    intro method
    change method ∈ [Method.get, .head, .post, .head] ↔
      method ∈ [Method.head, .post, .get]
    simp only [List.mem_cons, List.not_mem_nil, or_false]
    tauto
  have hmethods : (ofCalls calls).methods = [.get, .post] := by decide +kernel
  have hheader : (ofCalls calls).headerValue ≠ "" := by decide +kernel
  refine ⟨(hsame others hinserted).1, ?_⟩
  rw [hread hheader, hmethods]
  rfl

end AllowList
end Dispatch
