import Rs2Runtime.Message.Basic

/-!
Contract: queries written as pairs of a key and a value.

Owns:
- the text of a list of pairs;
- that every pair is read back.
-/

namespace Rs2Runtime.QueryPairs

open Text

/-- Pairs as a query, each after an ampersand. -/
def queryText (pairs : List (Str × Str)) : Str :=
  pairs.flatMap fun pair => '&' :: (pair.1 ++ '=' :: pair.2)

/-- A pair that the separators of a query do not cut. -/
structure PlainPair (pair : Str × Str) : Prop where
  keyAmpersand : '&' ∉ pair.1
  keyEquals : '=' ∉ pair.1
  value : '&' ∉ pair.2

theorem splitOn_queryText {first : Str × Str} {pairs : List (Str × Str)}
    (plain : ∀ pair ∈ first :: pairs, PlainPair pair) :
    (queryText (first :: pairs)).tail.splitOn '&' =
      (first :: pairs).map fun pair => pair.1 ++ '=' :: pair.2 := by
  induction pairs generalizing first with
  | nil =>
    have own := plain first List.mem_cons_self
    have absent : '&' ∉ first.1 ++ '=' :: first.2 := by
      simp [own.keyAmpersand, own.value]
    show (first.1 ++ '=' :: first.2 ++ []).splitOn '&' = _
    rw [List.append_nil, List.splitOn_eq_singleton absent]
    rfl
  | cons next pairs ih =>
    have own := plain first List.mem_cons_self
    have absent : '&' ∉ first.1 ++ '=' :: first.2 := by
      simp [own.keyAmpersand, own.value]
    have later := ih fun pair member => plain pair (List.mem_cons_of_mem _ member)
    have shape : (queryText (first :: next :: pairs)).tail =
        (first.1 ++ '=' :: first.2) ++ '&' :: (queryText (next :: pairs)).tail := rfl
    rw [shape, List.splitOn_append_cons_self, List.splitOn_eq_singleton absent, later]
    rfl

theorem queryPair_pair {pair : Str × Str} (plain : PlainPair pair) :
    MsgUrl.queryPair (pair.1 ++ '=' :: pair.2) = pair := by
  unfold MsgUrl.queryPair
  rw [splitOnce_char_of_not_mem plain.keyEquals]
  rfl

/-- The pieces of a query of pairs are the pairs, and none is empty. -/
theorem pieces_queryText {pairs : List (Str × Str)} (present : pairs ≠ [])
    (plain : ∀ pair ∈ pairs, PlainPair pair) :
    (((queryText pairs).tail.splitOn '&').map MsgUrl.queryPair = pairs) ∧
      ((queryText pairs).tail.splitOn '&').filter (· ≠ []) =
        (queryText pairs).tail.splitOn '&' := by
  obtain ⟨first, rest, rfl⟩ := List.exists_cons_of_ne_nil present
  rw [splitOn_queryText plain]
  constructor
  · rw [List.map_map]
    conv_rhs => rw [← List.map_id (first :: rest)]
    exact List.map_congr_left fun pair member => queryPair_pair (plain pair member)
  · rw [List.filter_eq_self]
    intro piece member
    obtain ⟨pair, -, rfl⟩ := List.mem_map.mp member
    simp

end Rs2Runtime.QueryPairs
