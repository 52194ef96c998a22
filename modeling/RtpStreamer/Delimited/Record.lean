import Mathlib.Data.List.Infix

/-!
# Self-delimiting records

A record is a header of fixed length and the payload whose length the header declares. Records can be
written one after the other without separators: a sequence long enough for its header starts with a
record (`exists_record`), and a cut either falls into the first record or leaves it whole
(`prefix_append_cases`).
-/

namespace Delimited

variable {α : Type*}

/-- How long a header is, and how many symbols it declares to follow. -/
structure Format (α : Type*) where
  headerLength : Nat
  extent : List α → Nat

structure Record (F : Format α) where
  header : List α
  payload : List α
  header_length : header.length = F.headerLength
  payload_length : payload.length = F.extent header

namespace Record

variable {F : Format α}

/-- The record as it is written. -/
def symbols (r : Record F) : List α := r.header ++ r.payload

theorem length_symbols (r : Record F) :
    r.symbols.length = F.headerLength + F.extent r.header := by
  rw [symbols, List.length_append, r.header_length, r.payload_length]

end Record

/-- The records one after the other. -/
def encode {F : Format α} (records : List (Record F)) : List α := records.flatMap Record.symbols

theorem encode_cons {F : Format α} (r : Record F) (records : List (Record F)) :
    encode (r :: records) = r.symbols ++ encode records := rfl

theorem encode_append {F : Format α} (records records' : List (Record F)) :
    encode (records ++ records') = encode records ++ encode records' := List.flatMap_append

theorem encode_snoc {F : Format α} (records : List (Record F)) (r : Record F) :
    encode (records ++ [r]) = encode records ++ r.symbols := by
  rw [encode_append, encode_cons]
  exact congrArg _ (List.append_nil _)

/-- A sequence with room for a header and what it declares starts with a record. -/
theorem exists_record (F : Format α) {s : List α} (hheader : F.headerLength ≤ s.length)
    (hextent : F.headerLength + F.extent (s.take F.headerLength) ≤ s.length) :
    ∃ (r : Record F) (rest : List α), s = r.symbols ++ rest ∧ r.header = s.take F.headerLength := by
  refine ⟨⟨s.take F.headerLength,
    (s.drop F.headerLength).take (F.extent (s.take F.headerLength)), ?_, ?_⟩,
    (s.drop F.headerLength).drop (F.extent (s.take F.headerLength)), ?_, rfl⟩
  · rw [List.length_take]
    omega
  · rw [List.length_take, List.length_drop]
    omega
  · rw [Record.symbols, List.append_assoc, List.take_append_drop, List.take_append_drop]

/-- A cut through two sequences falls into the first or leaves it whole. -/
theorem prefix_append_cases {cut first second : List α} (h : cut <+: first ++ second) :
    cut.length < first.length ∧ cut <+: first ∨ ∃ rest, cut = first ++ rest ∧ rest <+: second := by
  by_cases hlen : cut.length < first.length
  · exact Or.inl ⟨hlen, (List.isPrefix_append_of_length (by omega)).mp h⟩
  · refine Or.inr ⟨cut.drop first.length, ?_, ?_⟩
    · have hfirst : first <+: cut :=
        List.prefix_of_prefix_length_le (List.prefix_append first second) h (by omega)
      exact (List.prefix_append_drop hfirst)
    · obtain ⟨tail, htail⟩ := h
      have hdrop := congrArg (List.drop first.length) htail
      rw [List.drop_left, List.drop_append_of_le_length (by omega)] at hdrop
      exact ⟨tail, hdrop⟩

end Delimited
