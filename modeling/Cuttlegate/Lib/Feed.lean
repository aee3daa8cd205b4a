import Mathlib.Data.List.Induction
import Mathlib.Logic.Function.Basic

/-!
# Keyed Records and Their Changes

A map filled from a list of records, and a list of changes to its entries. A
record for a key replaces an earlier one, so a map filled from a list holds,
for each key, the last record of the list that carries it (`fill_eq`).

A change touches the entry of its key and no other, and does nothing where
there is no entry. When a change leaves no trace of an earlier one, only the
last change for a key matters (`follow_eq`). What a reader of the map will see
once the changes on their way have arrived is then settled by the last of
them, and `settled_snoc` and `settled_cons` say what happens to it when a
change is sent and when one arrives.

## Main definitions

* `Feed.latest`: The last record for a key.
* `Feed.fill`: The map filled from a list of records.
* `Feed.modify`: One change to a map.
* `Feed.follow`: A list of changes, oldest first.
* `Feed.settled`: What an entry will say once the changes have arrived.

## Theorems

* `Feed.latest_snoc`, `Feed.latest_cons`: The last record of a longer list.
* `Feed.latest_some`, `Feed.latest_none`: When there is one.
* `Feed.latest_map`, `Feed.latest_unique`: Of images, and a record without a
  rival.
* `Feed.fill_eq`: A map holds the last record for each key.
* `Feed.follow_eq`: Only the last change for a key matters.
* `Feed.settled_snoc`, `Feed.settled_cons`: Sending and receiving a change.
* `Feed.settled_sent`: A source that tells every change is followed.
-/

namespace Feed

variable {κ α β γ : Type} [DecidableEq κ]

/-- The last record of a list with the given key. -/
def latest (key : α → κ) (k : κ) (l : List α) : Option α :=
  l.foldl (fun found a => if key a = k then some a else found) none

/-- The map filled from a list of records, one after another. -/
def fill (key : α → κ) (val : α → β) (l : List α) : κ → Option β :=
  l.foldl (fun m a => Function.update m (key a) (some (val a))) (fun _ => none)

/-- Change the entry of a key, provided there is one. -/
def modify (k : κ) (f : β → β) (m : κ → Option β) : κ → Option β :=
  fun j => if j = k then (m j).map f else m j

/-- A list of changes, oldest first. -/
def follow (key : α → κ) (change : α → β → β) (l : List α) (m : κ → Option β) : κ → Option β :=
  l.foldl (fun m a => modify (key a) (change a) m) m

/-- What an entry for `k` that says `v` will say once the changes of the list
    have arrived. -/
def settled (key : α → κ) (val : α → γ) (l : List α) (k : κ) (v : γ) : γ :=
  match latest key k l with
  | none => v
  | some a => val a

@[simp] theorem latest_nil (key : α → κ) (k : κ) : latest key k [] = none := rfl

theorem latest_snoc (key : α → κ) (k : κ) (l : List α) (a : α) :
    latest key k (l ++ [a]) = if key a = k then some a else latest key k l := by
  unfold latest
  rw [List.foldl_append]
  rfl

/-- The last record of two lists in a row. -/
theorem latest_append (key : α → κ) (k : κ) (l l' : List α) :
    latest key k (l ++ l') = (latest key k l').or (latest key k l) := by
  induction l' using List.reverseRecOn with
  | nil => simp
  | append_singleton l' a ih =>
      rw [← List.append_assoc, latest_snoc, latest_snoc, ih]
      by_cases ha : key a = k
      · simp only [ha, if_true, Option.some_or]
      · simp only [ha, if_false]

theorem latest_cons (key : α → κ) (k : κ) (a : α) (l : List α) :
    latest key k (a :: l) = (latest key k l).or (if key a = k then some a else none) :=
  latest_append key k [a] l

theorem latest_some (key : α → κ) (k : κ) (l : List α) (a : α) (h : latest key k l = some a) :
    a ∈ l ∧ key a = k := by
  induction l using List.reverseRecOn with
  | nil => exact (nomatch h)
  | append_singleton l b ih =>
      rw [latest_snoc] at h
      by_cases hb : key b = k
      · rw [if_pos hb] at h
        cases h
        exact ⟨List.mem_append_right _ List.mem_cons_self, hb⟩
      · rw [if_neg hb] at h
        rcases ih h with ⟨hmem, hkey⟩
        exact ⟨List.mem_append_left _ hmem, hkey⟩

theorem latest_none (key : α → κ) (k : κ) (l : List α) :
    latest key k l = none ↔ ∀ a ∈ l, key a ≠ k := by
  induction l using List.reverseRecOn with
  | nil => simp
  | append_singleton l b ih =>
      rw [latest_snoc]
      by_cases hb : key b = k
      · simp [hb]
      · simp only [hb, if_false, ih, List.mem_append, List.mem_singleton]
        constructor
        · rintro hall a (ha | rfl)
          · exact hall a ha
          · exact hb
        · exact fun hall a ha => hall a (.inl ha)

/-- The last record of a list of images. -/
theorem latest_map (key : α → κ) (f : β → α) (k : κ) (l : List β) :
    latest key k (l.map f) = (latest (fun b => key (f b)) k l).map f := by
  induction l using List.reverseRecOn with
  | nil => rfl
  | append_singleton l b ih =>
      rw [List.map_append, List.map_singleton, latest_snoc, latest_snoc, ih, apply_ite (Option.map f)]
      rfl

/-- A record that is the only one with its key is the last one. -/
theorem latest_unique (key : α → κ) (l : List α) (a : α) (ha : a ∈ l)
    (hone : ∀ b ∈ l, key b = key a → b = a) : latest key (key a) l = some a := by
  cases hlast : latest key (key a) l with
  | none => exact absurd rfl ((latest_none key (key a) l).mp hlast a ha)
  | some b =>
      rcases latest_some key (key a) l b hlast with ⟨hb, hkey⟩
      rw [hone b hb hkey]

/-- A map filled from a list holds the last record for each key. -/
theorem fill_eq (key : α → κ) (val : α → β) (l : List α) (k : κ) :
    fill key val l k = (latest key k l).map val := by
  induction l using List.reverseRecOn with
  | nil => rfl
  | append_singleton l a ih =>
      rw [latest_snoc, fill, List.foldl_append]
      change Function.update (fill key val l) (key a) (some (val a)) k = _
      by_cases ha : key a = k
      · rw [if_pos ha, ← ha, Function.update_self]
        rfl
      · rw [if_neg ha, Function.update_of_ne (Ne.symm ha), ih]

/-- Where a change leaves no trace of an earlier one, only the last change for
    a key matters. -/
theorem follow_eq (key : α → κ) (change : α → β → β)
    (hover : ∀ a b x, change a (change b x) = change a x) (l : List α) (m : κ → Option β) (k : κ) :
    follow key change l m k =
      (latest key k l).elim (m k) (fun a => (m k).map (change a)) := by
  -- From the end: the last change to a key hides those before it.
  induction l using List.reverseRecOn with
  | nil => rfl
  | append_singleton l a ih =>
      have hlast : follow key change (l ++ [a]) m k =
          modify (key a) (change a) (follow key change l m) k := by
        rw [follow, List.foldl_append]
        rfl
      rw [hlast, latest_snoc, modify, ih]
      by_cases ha : key a = k
      · rw [if_pos ha.symm, if_pos ha]
        cases latest key k l with
        | none => rfl
        | some b =>
            rw [Option.elim_some, Option.elim_some, Option.map_map]
            exact congrArg (fun f => (m k).map f) (funext (hover a b))
      · rw [if_neg (Ne.symm ha), if_neg ha]

@[simp] theorem settled_nil (key : α → κ) (val : α → γ) (k : κ) (v : γ) :
    settled key val [] k v = v := rfl

/-- A change that is sent settles the entry of its key. -/
theorem settled_snoc (key : α → κ) (val : α → γ) (l : List α) (a : α) (k : κ) (v : γ) :
    settled key val (l ++ [a]) k v = if key a = k then val a else settled key val l k v := by
  unfold settled
  rw [latest_snoc]
  by_cases ha : key a = k
  · rw [if_pos ha, if_pos ha]
  · rw [if_neg ha, if_neg ha]

/-- An entry that will say what its source says still will once the source has
    changed, provided it sends the change. -/
theorem settled_sent (key : α → κ) (val : α → γ) (l : List α) (a : α) (source : κ → γ) (k : κ)
    (v : γ) (h : settled key val l k v = source k) :
    settled key val (l ++ [a]) k v = Function.update source (key a) (val a) k := by
  rw [settled_snoc]
  by_cases hk : key a = k
  · rw [if_pos hk, ← hk, Function.update_self]
  · rw [if_neg hk, Function.update_of_ne (Ne.symm hk), h]

/-- A change that arrives ahead of the others has done to the entry of its key
    what it was going to do. -/
theorem settled_cons (key : α → κ) (val : α → γ) (a : α) (l : List α) (k : κ) (v : γ) :
    settled key val (a :: l) k v = settled key val l k (if key a = k then val a else v) := by
  unfold settled
  rw [latest_cons]
  cases latest key k l with
  | some b => rfl
  | none =>
      by_cases ha : key a = k
      · simp only [ha, if_true, Option.none_or]
      · simp only [ha, if_false, Option.none_or]

end Feed
