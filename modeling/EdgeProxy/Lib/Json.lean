import Mathlib.Data.List.Nodup

/-! # JSON values

The tree of values of a JSON document. An object is a list of named members; setting a member takes
the place of one of the same name.
-/
namespace EdgeProxy.Lib
open List

inductive Json where
  | null
  | bool (b : Bool)
  | number (value : Rat)
  | string (s : List UInt8)
  | array (items : List Json)
  | object (members : List (String × Json))

namespace Json

def items : Json → List Json
  | array items => items
  | _ => []
def member (name : String) : Json → Option Json
  | object members => members.lookup name
  | _ => none

/-- The strings and numbers of the value are of the given kinds, and no object has two members of one
name. -/
inductive WellFormed (str : List UInt8 → Prop) (num : Rat → Prop) : Json → Prop where
  | null : WellFormed str num .null
  | bool (b : Bool) : WellFormed str num (.bool b)
  | number {value : Rat} : num value → WellFormed str num (.number value)
  | string {s : List UInt8} : str s → WellFormed str num (.string s)
  | array {items : List Json} : (∀ v ∈ items, WellFormed str num v) → WellFormed str num (.array items)
  | object {members : List (String × Json)} : (members.map Prod.fst).Nodup →
      (∀ m ∈ members, WellFormed str num m.2) → WellFormed str num (.object members)

end Json

variable {α : Type}

def setMember (name : String) (value : α) : List (String × α) → List (String × α)
  | [] => [(name,value)]
  | m :: members => if m.1 = name then (name,value) :: members else m :: setMember name value members
def setMembers (members new : List (String × α)) : List (String × α) :=
  new.foldl (fun members m => setMember m.1 m.2 members) members

lemma setMember_of_notMem {name : String} {value : α} {members : List (String × α)}
    (h : name ∉ members.map Prod.fst) : setMember name value members = members ++ [(name,value)] := by
  induction members with
  | nil => rfl
  | cons m members ih =>
    simp only [map_cons,mem_cons,not_or] at h
    rw [setMember,if_neg (Ne.symm h.1),ih h.2]
    rfl
lemma setMembers_of_nodup {members new : List (String × α)} (h : ((members ++ new).map Prod.fst).Nodup) :
    setMembers members new = members ++ new := by
  induction new generalizing members with
  | nil => exact (append_nil members).symm
  | cons m new ih =>
    have happend : members ++ m :: new = members ++ [m] ++ new := (append_cons members m new)
    have hfresh : m.1 ∉ members.map Prod.fst := by
      rw [map_append,nodup_append] at h
      exact fun hm => h.2.2 m.1 hm m.1 mem_cons_self rfl
    rw [happend] at h ⊢
    rw [← ih h]
    exact congrArg (setMembers · new) (setMember_of_notMem hfresh)
lemma lookup_of_mem {members : List (String × α)} (h : (members.map Prod.fst).Nodup) {m : String × α}
    (hm : m ∈ members) : members.lookup m.1 = some m.2 := by
  induction members with
  | nil => cases hm
  | cons m' members ih =>
    rw [map_cons,nodup_cons] at h
    rw [lookup_cons]
    rcases mem_cons.1 hm with rfl | hm
    · rw [beq_self_eq_true]
    · have hne : m.1 ≠ m'.1 := fun heq => h.1 (heq ▸ mem_map_of_mem hm)
      rw [beq_false_of_ne hne]
      exact ih h.2 hm

end EdgeProxy.Lib
