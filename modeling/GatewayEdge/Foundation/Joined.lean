import GatewayEdge.Foundation.Utf8Encode

/-!
# Joined — fields joined by a separator and cut off

Fields without the separator are read back from their join by splitting it.  A reader that is handed a
beginning of the join gets the same fields exactly when it is handed all of it.
-/

namespace GatewayEdge
namespace Foundation

section Joined

variable {α : Type*} {sep : α} {fields : List (List α)} {n : ℕ}

/-- The fields and one separator between any two of them. -/
theorem length_join (sep : α) (hne : fields ≠ []) :
    ([sep].intercalate fields).length + 1 = (fields.map List.length).sum + fields.length := by
  induction fields with
  | nil => exact absurd rfl hne
  | cons field rest ih =>
      cases rest with
      | nil => simp
      | cons next rest =>
          have hrest := ih (List.cons_ne_nil next rest)
          have hcount : (field :: next :: rest).length = (next :: rest).length + 1 := rfl
          rw [List.intercalate_cons_of_ne_nil (List.cons_ne_nil next rest), List.length_append,
            List.length_append, List.length_singleton, List.map_cons, List.sum_cons, hcount]
          omega

/-- A beginning of the join has the same fields exactly when nothing is cut off. -/
theorem splitOn_take_join_iff [BEq α] [LawfulBEq α] (hne : fields ≠ [])
    (hsep : ∀ field ∈ fields, sep ∉ field) :
    (([sep].intercalate fields).take n).splitOn sep = fields ↔
      ([sep].intercalate fields).length ≤ n := by
  constructor
  · intro h
    -- Joining what is read gives the beginning that was split; here it gives the whole join.
    have hall : [sep].intercalate fields = ([sep].intercalate fields).take n := by
      conv_lhs => rw [← h]
      exact List.intercalate_splitOn sep
    have hlen := congrArg List.length hall
    rw [List.length_take] at hlen
    omega
  · intro h
    rw [List.take_of_length_le h, List.splitOn_intercalate sep hsep hne]

end Joined

/-- The bytes of a join are the join of the bytes. -/
theorem strBytes_intercalate (sep : String) (fields : List String) :
    strBytes (sep.intercalate fields) = (strBytes sep).intercalate (fields.map strBytes) := by
  induction fields with
  | nil => rfl
  | cons field rest ih =>
      cases rest with
      | nil => simp
      | cons next rest =>
          have hne : (next :: rest).map strBytes ≠ [] := List.cons_ne_nil _ _
          rw [String.intercalate_cons_of_ne_nil (List.cons_ne_nil next rest), List.map_cons,
            List.intercalate_cons_of_ne_nil hne, strBytes_append, strBytes_append, ih]

end Foundation
end GatewayEdge
