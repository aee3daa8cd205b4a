import Mathlib.Data.List.Basic

/-!
# Framing

A reader of a byte stream gets it in chunks that it did not choose. It keeps
what it has not used in a buffer, appends each chunk to it, and takes complete
frames off its front for as long as there is one.

How a frame is recognised is a `Cutter`: a partial function that takes the
first frame off a text, together with the two facts that make the way the text
was cut irrelevant. Taking a frame makes the text shorter, and a frame that is
there stays the first one when more text arrives.

`Cutter.read_eq` is then the only thing to know about chunks: reading them one
after another finds the frames of the whole text. `Cutter.frames_encoded` says
what those are for a text that was written frame by frame.

## Main definitions

* `Cutter`: How a frame is taken off a text.
* `Cutter.frames`: The frames of a text, and what is left of it.
* `Cutter.read`: Reading chunk by chunk.

## Theorems

* `flatMap_prefix`, `flatMap_prefix_whole`: The beginning of a text written piece
  by piece.
* `Cutter.frames_eq`: The frames of a text, one at a time.
* `Cutter.frames_append`: The frames of a text that arrives in two parts.
* `Cutter.read_eq`: Chunks do not matter.
* `Cutter.frames_encoded`: The frames of a text written frame by frame.
-/

variable {α : Type}

/-- The beginning of a text written piece by piece: some pieces, and a
    beginning of the next that is not all of it. -/
theorem flatMap_prefix {β : Type} (encode : β → List α) (l : List β) (x : List α)
    (hx : x <+: l.flatMap encode) : ∃ m r, x = (l.take m).flatMap encode ++ r ∧
      (∀ b, l[m]? = some b → r <+: encode b ∧ r ≠ encode b) ∧ (l[m]? = none → r = []) := by
  induction l generalizing x with
  | nil =>
      rw [List.flatMap_nil, List.prefix_nil] at hx
      exact ⟨0, [], hx, fun b hb => (nomatch hb), fun _ => rfl⟩
  | cons b l ih =>
      rw [List.flatMap_cons] at hx
      by_cases hwhole : encode b <+: x
      · -- The first piece is there, and the next ones follow.
        rcases hwhole with ⟨y, rfl⟩
        rcases ih y ((List.prefix_append_right_inj _).mp hx) with ⟨m, r, rfl, hr, hend⟩
        refine ⟨m + 1, r, ?_, hr, hend⟩
        rw [List.take_succ_cons, List.flatMap_cons, List.append_assoc]
      · refine ⟨0, x, rfl, fun d hd => ?_, fun h => (nomatch h)⟩
        cases hd
        refine ⟨?_, fun heq => hwhole (heq ▸ List.prefix_rfl)⟩
        exact (List.prefix_or_prefix_of_prefix hx (List.prefix_append _ _)).resolve_right hwhole

/-- No more pieces are whole than that. -/
theorem flatMap_prefix_whole {β : Type} (encode : β → List α) (l : List β) (m n : Nat)
    (r : List α) (hr : ∀ b, l[m]? = some b → r <+: encode b ∧ r ≠ encode b)
    (hn : (l.take n).flatMap encode <+: (l.take m).flatMap encode ++ r) : (l.take n).length ≤ m := by
  by_contra hlong
  rw [List.length_take, Nat.not_le, Nat.lt_min] at hlong
  -- The next piece would have to be within what is left.
  have hnext : l[m]? = some l[m] := List.getElem?_eq_getElem hlong.2
  have hsplit : (l.take (m + 1)).flatMap encode = (l.take m).flatMap encode ++ encode l[m] := by
    rw [List.take_succ_eq_append_getElem hlong.2, List.flatMap_append, List.flatMap_singleton]
  have hmore : (l.take (m + 1)).flatMap encode <+: (l.take n).flatMap encode := by
    rw [← List.take_append_drop (m + 1) (l.take n), List.take_take,
      Nat.min_eq_left (by omega), List.flatMap_append]
    exact List.prefix_append _ _
  rw [hsplit] at hmore
  have hin := (List.prefix_append_right_inj _).mp (hmore.trans hn)
  rcases hr _ hnext with ⟨hbegin, hne⟩
  exact hne (hbegin.eq_of_length_le hin.length_le)

/-- How the first frame is taken off a text. -/
structure Cutter (α : Type) where
  cut : List α → Option (List α × List α)
  shrinks : ∀ x frame rest, cut x = some (frame, rest) → rest.length < x.length
  stable : ∀ x y frame rest, cut x = some (frame, rest) → cut (x ++ y) = some (frame, rest ++ y)

namespace Cutter

variable (c : Cutter α)

/-- Take frames off a text while there is one, but not more than `n`. -/
def take : Nat → List α → List (List α) × List α
  | 0, x => ([], x)
  | n + 1, x =>
      match c.cut x with
      | none => ([], x)
      | some (frame, rest) => (frame :: (take n rest).1, (take n rest).2)

/-- The frames of a text, and what is left of it. A text has no more frames
    than elements. -/
def frames (x : List α) : List (List α) × List α := c.take x.length x

/-- Reading chunk by chunk: the frames found, and the buffer at the end. -/
def read (buffer : List α) : List (List α) → List (List α) × List α
  | [] => ([], buffer)
  | chunk :: chunks =>
      let found := c.frames (buffer ++ chunk)
      let later := read found.2 chunks
      (found.1 ++ later.1, later.2)

theorem cut_nil : c.cut [] = none := by
  cases hcut : c.cut [] with
  | none => rfl
  | some found => exact absurd (c.shrinks [] found.1 found.2 hcut) (Nat.not_lt_zero _)

theorem take_nil (n : Nat) : c.take n [] = ([], []) := by
  cases n with
  | zero => rfl
  | succ n => rw [take, cut_nil]

/-- Two bounds that are large enough take the same frames. -/
theorem take_enough (n m : Nat) (x : List α) (hn : x.length ≤ n) (hm : x.length ≤ m) :
    c.take n x = c.take m x := by
  -- On the fuel: a cut frame leaves less input, so what suffices for the whole suffices for
  -- the rest.
  induction n generalizing x m with
  | zero =>
      rw [List.length_eq_zero_iff.mp (Nat.le_zero.mp hn), take_nil, take_nil]
  | succ n ih =>
      cases x with
      | nil => rw [take_nil, take_nil]
      | cons a tail =>
          cases m with
          | zero => exact absurd hm (Nat.not_succ_le_zero _)
          | succ m =>
              rw [take, take]
              cases hcut : c.cut (a :: tail) with
              | none => rfl
              | some found =>
                  rcases found with ⟨frame, rest⟩
                  have hshort := c.shrinks (a :: tail) frame rest hcut
                  dsimp only
                  rw [ih m rest (by omega) (by omega)]

/-- The frames of a text, one at a time. -/
theorem frames_eq (x : List α) :
    c.frames x = (c.cut x).elim ([], x)
      (fun found => (found.1 :: (c.frames found.2).1, (c.frames found.2).2)) := by
  cases x with
  | nil => rw [frames, take_nil, cut_nil, Option.elim_none]
  | cons a tail =>
      rw [frames, List.length_cons, take]
      cases hcut : c.cut (a :: tail) with
      | none => rfl
      | some found =>
          rcases found with ⟨frame, rest⟩
          have hshort := c.shrinks (a :: tail) frame rest hcut
          rw [List.length_cons] at hshort
          rw [Option.elim_some, frames]
          dsimp only
          rw [c.take_enough tail.length rest.length rest (by omega) (Nat.le_refl _)]

theorem frames_none (x : List α) (h : c.cut x = none) : c.frames x = ([], x) := by
  rw [frames_eq, h, Option.elim_none]

theorem frames_some (x frame rest : List α) (h : c.cut x = some (frame, rest)) :
    c.frames x = (frame :: (c.frames rest).1, (c.frames rest).2) := by
  rw [frames_eq, h, Option.elim_some]

/-- The frames of a text that arrives in two parts: those of the first part,
    and those of what it left with the second. -/
theorem frames_append (x y : List α) :
    c.frames (x ++ y) = ((c.frames x).1 ++ (c.frames ((c.frames x).2 ++ y)).1,
      (c.frames ((c.frames x).2 ++ y)).2) := by
  -- By induction on the length of the first part, frame by frame.
  generalize hn : x.length = n
  induction n using Nat.strongRecOn generalizing x with
  | _ n ih =>
      cases hcut : c.cut x with
      | none => rw [c.frames_none x hcut, List.nil_append]
      | some found =>
          have hshort := c.shrinks x found.1 found.2 hcut
          rw [c.frames_some x found.1 found.2 hcut,
            c.frames_some (x ++ y) found.1 (found.2 ++ y) (c.stable x y found.1 found.2 hcut),
            ih found.2.length (by omega) found.2 rfl]
          rfl

/-- What is left of a text has no frame. -/
theorem frames_rest (x : List α) : c.frames (c.frames x).2 = ([], (c.frames x).2) := by
  generalize hn : x.length = n
  induction n using Nat.strongRecOn generalizing x with
  | _ n ih =>
      cases hcut : c.cut x with
      | none =>
          rw [c.frames_none x hcut]
          exact c.frames_none x hcut
      | some found =>
          have hshort := c.shrinks x found.1 found.2 hcut
          rw [c.frames_some x found.1 found.2 hcut]
          exact ih found.2.length (by omega) found.2 rfl

/-- Reading chunk by chunk finds the frames of the whole text. -/
theorem read_eq (buffer : List α) (chunks : List (List α)) (h : c.frames buffer = ([], buffer)) :
    c.read buffer chunks = c.frames (buffer ++ chunks.flatten) := by
  induction chunks generalizing buffer with
  | nil => rw [read, List.flatten_nil, List.append_nil, h]
  | cons chunk chunks ih =>
      rw [read, ih _ (c.frames_rest (buffer ++ chunk)), List.flatten_cons, ← List.append_assoc,
        c.frames_append (buffer ++ chunk)]

/-- The frames of a text that was written frame by frame: where each piece is
    one complete frame whatever follows it, they are the frames of the
    pieces. -/
theorem frames_encoded {β : Type} (encode : β → List α) (body : β → List α) (l : List β)
    (hcut : ∀ b ∈ l, ∀ y, c.cut (encode b ++ y) = some (body b, y)) :
    c.frames (l.flatMap encode) = (l.map body, []) := by
  induction l with
  | nil => exact c.take_nil 0
  | cons b l ih =>
      rw [List.flatMap_cons, c.frames_some _ _ _ (hcut b List.mem_cons_self _),
        ih (fun b hb => hcut b (List.mem_cons_of_mem _ hb)), List.map_cons]

end Cutter
