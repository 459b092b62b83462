import Mathlib.Data.List.Basic
import Mathlib.Data.List.TakeDrop

/-! Work in batches: a list is cut into pieces of a size, and the pieces are sent one after
the other until one of them fails. -/

namespace Batches

section Chunks

variable {α : Type*}

/-- The pieces of `current ++ items`, where `current` is the piece that is being filled. -/
def chunksFrom (size : Nat) (current : List α) : List α → List (List α)
  | [] => if current.isEmpty then [] else [current]
  | a :: items =>
    if current.length + 1 < size then chunksFrom size (current ++ [a]) items
    else (current ++ [a]) :: chunksFrom size [] items

/-- `slice::chunks`, for a size that is not zero. -/
def chunks (size : Nat) (items : List α) : List (List α) := chunksFrom size [] items

theorem flatten_chunksFrom (size : Nat) (current items : List α) :
    (chunksFrom size current items).flatten = current ++ items := by
  induction items generalizing current with
  | nil =>
    cases current with
    | nil => rfl
    | cons a current => simp [chunksFrom]
  | cons a items ih =>
    rw [chunksFrom]
    split
    · rw [ih, List.append_assoc, List.singleton_append]
    · rw [List.flatten_cons, ih, List.nil_append, List.append_assoc, List.singleton_append]

theorem flatten_chunks (size : Nat) (items : List α) : (chunks size items).flatten = items :=
  flatten_chunksFrom size [] items

theorem chunksFrom_sizes {size : Nat} (positive : 0 < size) {current items : List α}
    (room : current.length < size) :
    ∀ chunk ∈ chunksFrom size current items, 0 < chunk.length ∧ chunk.length ≤ size := by
  induction items generalizing current with
  | nil =>
    intro chunk mem
    cases current with
    | nil => simp [chunksFrom] at mem
    | cons a current =>
      have same : chunk = a :: current := by simpa [chunksFrom] using mem
      rw [same]
      exact ⟨Nat.succ_pos _, Nat.le_of_lt room⟩
  | cons a items ih =>
    intro chunk mem
    rw [chunksFrom] at mem
    split at mem
    · rename_i more
      exact ih (by simpa using more) chunk mem
    · rcases List.mem_cons.mp mem with rfl | later
      · rw [List.length_append, List.length_singleton]
        exact ⟨Nat.succ_pos _, room⟩
      · exact ih (by simpa using positive) chunk later

theorem chunks_sizes {size : Nat} (positive : 0 < size) (items : List α) :
    ∀ chunk ∈ chunks size items, 0 < chunk.length ∧ chunk.length ≤ size :=
  chunksFrom_sizes positive (by simpa using positive)

end Chunks

section Sending

variable {α β ε S R : Type*}

/-- The batches are sent in order, and the first failure is the last one that is sent. -/
def sendAll (send : S → List α → Except ε (List β) × S) (state : S) :
    List (List α) → Except ε (List β) × S
  | [] => (.ok [], state)
  | batch :: batches =>
    match send state batch with
    | (.error error, state) => (.error error, state)
    | (.ok results, state) =>
      let rest := sendAll send state batches
      (rest.1.map (results ++ ·), rest.2)

variable {send : List R → List α → Except ε (List β) × List R} {sent : List α → List R}

/-- What is logged is what the batches of a front send. -/
theorem sendAll_log (logs : ∀ log batch, (send log batch).2 = log ++ sent batch) (log : List R)
    (batches : List (List α)) :
    ∃ k ≤ batches.length, (sendAll send log batches).2 = log ++ (batches.take k).flatMap sent ∧
      ((∃ results, (sendAll send log batches).1 = .ok results) → k = batches.length) := by
  induction batches generalizing log with
  | nil => exact ⟨0, Nat.le_refl _, by simp [sendAll], fun _ => rfl⟩
  | cons batch batches ih =>
    have first := logs log batch
    simp only [sendAll]
    cases outcome : send log batch with
    | mk answer after =>
      rw [outcome] at first
      replace first : after = log ++ sent batch := first
      cases answer with
      | error error =>
        refine ⟨1, by simp, by simp [first], ?_⟩
        intro ⟨results, h⟩
        cases h
      | ok results =>
        obtain ⟨k, le, later, all⟩ := ih after
        refine ⟨k + 1, Nat.succ_le_succ le, ?_, ?_⟩
        · show (sendAll send after batches).2 = _
          rw [later, first, List.take_succ_cons, List.flatMap_cons, List.append_assoc]
        · intro ⟨whole, h⟩
          cases rest : (sendAll send after batches).1 with
          | error error =>
            simp only [rest] at h
            cases h
          | ok more => rw [all ⟨more, rest⟩, List.length_cons]

/-- Each piece of the results came back for its batch, behind what was sent for the batches
before. -/
theorem sendAll_at {request : List α → R}
    (logs : ∀ log batch results, (send log batch).1 = .ok results →
      (send log batch).2 = log ++ [request batch])
    {log : List R} {batches : List (List α)} {results : List β}
    (h : (sendAll send log batches).1 = .ok results) :
    ∃ pieces : List (List β), results = pieces.flatten ∧ pieces.length = batches.length ∧
      ∀ (k : Nat) (batch : List α), batches[k]? = some batch →
        ∃ piece : List β, pieces[k]? = some piece ∧
          (send (log ++ (batches.take k).map request) batch).1 = .ok piece := by
  induction batches generalizing log results with
  | nil =>
    cases h
    exact ⟨[], rfl, rfl, fun k batch there => by simp at there⟩
  | cons batch batches ih =>
    have logged := logs log batch
    simp only [sendAll] at h
    cases outcome : send log batch with
    | mk answer after =>
      rw [outcome] at h logged
      cases answer with
      | error error => cases h
      | ok first =>
        obtain rfl : after = log ++ [request batch] := logged first rfl
        cases rest : (sendAll send (log ++ [request batch]) batches).1 with
        | error error =>
          simp only [rest] at h
          cases h
        | ok more =>
          simp only [rest] at h
          cases h
          obtain ⟨pieces, rfl, length, each⟩ := ih rest
          refine ⟨first :: pieces, rfl, by rw [List.length_cons, List.length_cons, length], ?_⟩
          intro k other there
          cases k with
          | zero =>
            cases there
            exact ⟨first, rfl, by rw [List.take_zero, List.map_nil, List.append_nil, outcome]⟩
          | succ k =>
            obtain ⟨piece, found, sent⟩ := each k other there
            refine ⟨piece, found, ?_⟩
            rw [List.take_succ_cons, List.map_cons, List.append_cons]
            exact sent

/-- The item at a place of all batches stands in one of them, behind the batches before. Where the
pieces are as long as the batches, what came back stands in its piece at the same place. -/
theorem flatten_at {batches : List (List α)} {pieces : List (List β)}
    (length : pieces.length = batches.length)
    (fits : ∀ (k : Nat) (batch : List α) (piece : List β), batches[k]? = some batch →
      pieces[k]? = some piece → piece.length = batch.length)
    {i : Nat} {a : α} (here : batches.flatten[i]? = some a) :
    ∃ (k : Nat) (batch : List α) (j : Nat), batches[k]? = some batch ∧
      i = (batches.take k).flatten.length + j ∧ batch[j]? = some a ∧
      ∀ piece : List β, pieces[k]? = some piece → piece[j]? = pieces.flatten[i]? := by
  induction batches generalizing pieces i with
  | nil => simp at here
  | cons batch batches ih =>
    cases pieces with
    | nil => cases length
    | cons piece pieces =>
      have same := fits 0 batch piece rfl rfl
      rw [List.flatten_cons] at here
      by_cases inside : i < batch.length
      · rw [List.getElem?_append_left inside] at here
        refine ⟨0, batch, i, rfl, by simp, here, ?_⟩
        rintro _ ⟨⟩
        rw [List.flatten_cons, List.getElem?_append_left (by omega)]
      · rw [List.getElem?_append_right (by omega)] at here
        obtain ⟨k, batch', j, there, place, item, found⟩ :=
          ih (Nat.succ.inj length) (fun k => fits (k + 1)) here
        refine ⟨k + 1, batch', j, there, ?_, item, fun piece' there => ?_⟩
        · rw [List.take_succ_cons, List.flatten_cons, List.length_append]
          omega
        · rw [found piece' there, List.flatten_cons, List.getElem?_append_right (by omega), same]

end Sending

end Batches
