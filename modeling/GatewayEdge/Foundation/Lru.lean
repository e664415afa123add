import Mathlib.Data.List.Nodup

/-!
# Lru — a bounded least-recently-used map

The entries, most recently used first.  The type carries its own well-formedness: at most
`capacity` entries, no key twice.  What a user of a cache needs is only where an entry can have
come from, so the lemmas bound membership after each operation.
-/

namespace GatewayEdge
namespace Foundation

/-- A map with at most `capacity` entries, most recently used first. -/
structure Lru (κ ν : Type*) (capacity : Nat) where
  entries : List (κ × ν)
  bounded : entries.length ≤ capacity
  nodup : (entries.map Prod.fst).Nodup

namespace Lru

variable {κ ν : Type*} {capacity : Nat} [DecidableEq κ]

instance : Membership (κ × ν) (Lru κ ν capacity) := ⟨fun c e => e ∈ c.entries⟩

/-- The cache without entries. -/
def empty : Lru κ ν capacity := ⟨[], by simp, by simp⟩

/-- Remove the entry of a key, if there is one. -/
def pop (c : Lru κ ν capacity) (k : κ) : Lru κ ν capacity where
  entries := c.entries.filter fun e => e.1 ≠ k
  bounded := Nat.le_trans (List.length_filter_le _ _) c.bounded
  nodup := c.nodup.sublist (List.filter_sublist.map Prod.fst)

theorem key_not_mem_pop (c : Lru κ ν capacity) (k : κ) : k ∉ (c.pop k).entries.map Prod.fst := by
  simp [pop]

/-- Insert or overwrite; the new entry is the most recent one and the least recent one is dropped
when the capacity is exceeded. -/
def put (c : Lru κ ν capacity) (k : κ) (v : ν) : Lru κ ν capacity where
  entries := ((k, v) :: (c.pop k).entries).take capacity
  bounded := List.length_take_le _ _
  nodup := by
    have hnodup : (((k, v) :: (c.pop k).entries).map Prod.fst).Nodup := by
      simpa using ⟨by simpa using c.key_not_mem_pop k, (c.pop k).nodup⟩
    exact hnodup.sublist ((List.take_sublist _ _).map Prod.fst)

/-- Look a key up; a hit makes its entry the most recent one. -/
def get (c : Lru κ ν capacity) (k : κ) : Lru κ ν capacity × Option ν :=
  match c.entries.lookup k with
  | some v => (c.put k v, some v)
  | none => (c, none)

omit [DecidableEq κ] in
@[simp] theorem not_mem_empty (e : κ × ν) : e ∉ (empty : Lru κ ν capacity) :=
  List.not_mem_nil

theorem mem_of_mem_pop {c : Lru κ ν capacity} {k : κ} {e : κ × ν} (h : e ∈ c.pop k) : e ∈ c :=
  (List.mem_filter.1 h).1

theorem mem_of_mem_put {c : Lru κ ν capacity} {k : κ} {v : ν} {e : κ × ν} (h : e ∈ c.put k v) :
    e = (k, v) ∨ e ∈ c := by
  have hcons : e ∈ (k, v) :: (c.pop k).entries := List.mem_of_mem_take h
  rcases List.mem_cons.1 hcons with heq | hpop
  · exact Or.inl heq
  · exact Or.inr (mem_of_mem_pop hpop)

theorem mem_of_lookup {l : List (κ × ν)} {k : κ} {v : ν} (h : l.lookup k = some v) :
    (k, v) ∈ l := by
  rcases List.lookup_eq_some_iff.1 h with ⟨before, after, rfl, _⟩
  simp

theorem mem_of_get {c : Lru κ ν capacity} {k : κ} {v : ν} (h : (c.get k).2 = some v) :
    (k, v) ∈ c := by
  unfold get at h
  cases hl : c.entries.lookup k with
  | none => simp [hl] at h
  | some w =>
      have hw : w = v := by simpa [hl] using h
      exact mem_of_lookup (hw ▸ hl)

/-- What has just been put is found. -/
theorem get_put (hcapacity : 0 < capacity) (c : Lru κ ν capacity) (k : κ) (v : ν) :
    ((c.put k v).get k).2 = some v := by
  cases capacity with
  | zero => cases hcapacity
  | succ n => simp [get, put]

theorem mem_of_mem_get {c : Lru κ ν capacity} {k : κ} {e : κ × ν} (h : e ∈ (c.get k).1) :
    e ∈ c := by
  unfold get at h
  cases hl : c.entries.lookup k with
  | none => simpa [hl] using h
  | some w =>
      have hput : e ∈ c.put k w := by simpa [hl] using h
      rcases mem_of_mem_put hput with heq | hmem
      · exact heq ▸ mem_of_lookup hl
      · exact hmem

end Lru

end Foundation
end GatewayEdge
