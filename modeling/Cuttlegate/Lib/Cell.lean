import Mathlib.Data.List.Nodup
import Cuttlegate.Lib.Discipline

/-!
# Read, Edit, Write Back

Programs that change one cell of the shared state by reading it, computing a
new value from what they read, and writing that back. Nothing locks the cell,
so a write may be based on a value that has been replaced in the meantime, and
then it takes back whatever replaced it.

`Cell` says which operations look at the cell and which replace it. An
`EditNote` is what a program carries along: the edit it was asked for, the
value it last saw, and whether it has written. `Cell.fresh` is a property of
the trace alone: nobody has written since a program last looked. When every
write is fresh the edits are serial, that is, the cell holds what the edits of
the programs that wrote give when they are applied one after another, in the
order of their writes.

## Main definitions

* `Cell`: The operations that concern one cell.
* `Cell.Lawful`: What they do to it.
* `EditNote`, `Cell.discipline`: Writing back an edit of what was read.
* `Cell.fresh`, `Cell.OnLatest`: Writes based on the latest value.
* `Cell.Edits`: A program that makes one edit.

## Theorems

* `Cell.Serial.step`: A fresh write extends the serial order.
* `Cell.serial`: In runs with fresh writes only, the edits are serial.
-/

variable {ε Op : Type} {Ret : Op → Type} {V K α β σ : Type}

/-- The operations that concern one cell: which of them look at it and what
    they then saw, which replace it and by what, over which connection they
    go, and which leave it alone. -/
structure Cell (ε Op : Type) (Ret : Op → Type) (V K : Type) where
  looks : Op → Bool
  saw : (op : Op) → Except ε (Ret op) → Option V
  writes : Op → Option V
  via : Op → K
  leaves : Op → Prop
  /-- A value that can be written over another. -/
  fits : V → V → Prop

namespace Cell

/-- What the operations do. Only an open connection reaches the cell, and one
    over which it was seen is open. -/
structure Lawful (C : Cell ε Op Ret V K) (exec : (op : Op) → σ → Except ε (Ret op) × σ)
    (cell : σ → Option V) (isOpen : K → Prop) : Prop where
  apart : ∀ op, C.looks op = true → C.writes op = none
  look : ∀ op s v, C.looks op = true → C.saw op (exec op s).1 = some v →
    cell s = some v ∧ isOpen (C.via op)
  leave : ∀ op s, C.leaves op → cell (exec op s).2 = cell s
  refuse : ∀ op s new e, C.writes op = some new → (exec op s).1 = .error e →
    cell (exec op s).2 = cell s
  write : ∀ op s new v a, C.writes op = some new → (exec op s).1 = .ok a → cell s = some v →
    isOpen (C.via op) → C.fits v new → cell (exec op s).2 = some new

end Cell

/-- What a program that makes one edit carries along. -/
structure EditNote (ε V K : Type) where
  edit : V → Except ε V
  via : K
  seen : Option V := none
  wrote : Bool := false

namespace Cell

/-- The cell is looked at over one connection, and written once, over the same
    connection, with an edit of what was seen last. -/
def discipline (C : Cell ε Op Ret V K) : Discipline ε Op Ret (EditNote ε V K) where
  permits := fun op note =>
    (C.looks op = true → C.via op = note.via) ∧
    match C.writes op with
    | none => C.leaves op
    | some new => note.wrote = false ∧ C.via op = note.via ∧
        ∃ v, note.seen = some v ∧ note.edit v = .ok new ∧ C.fits v new
  after := fun op r note =>
    { note with
      seen := if C.looks op then C.saw op r else note.seen
      wrote := match C.writes op, r with
        | some _, .ok _ => true
        | _, _ => note.wrote }

/-- Nobody has written to the cell since program `i` last looked at it. -/
def fresh (C : Cell ε Op Ret V K) (i : Nat) (tr : List (Nat × Op)) : Bool :=
  tr.foldl (fun b e =>
    if e.1 = i ∧ C.looks e.2 = true then true
    else if (C.writes e.2).isSome then false
    else b) false

/-- A write is made only when it is fresh. -/
def OnLatest (C : Cell ε Op Ret V K) (tr : List (Nat × Op)) (i : Nat) (op : Op) : Prop :=
  (C.writes op).isSome = true → C.fresh i tr = true

instance (C : Cell ε Op Ret V K) (tr : List (Nat × Op)) (i : Nat) (op : Op) :
    Decidable (C.OnLatest tr i op) :=
  inferInstanceAs (Decidable (_ → _))

theorem fresh_snoc (C : Cell ε Op Ret V K) (i j : Nat) (tr : List (Nat × Op)) (op : Op) :
    C.fresh i (tr ++ [(j, op)]) =
      if j = i ∧ C.looks op = true then true
      else if (C.writes op).isSome then false
      else C.fresh i tr := by
  unfold fresh
  rw [List.foldl_append]
  rfl

/-! ## Programs that make one edit -/

/-- The program obeys the discipline, and succeeds exactly when it has
    written. -/
def Edits (C : Cell ε Op Ret V K) (p : Proc ε Op Ret α) (note : EditNote ε V K) : Prop :=
  p.Obeys C.discipline (fun r note => note.wrote = r.isOk) note

section Programs

variable {C : Cell ε Op Ret V K}

theorem edits_fail (e : ε) (note : EditNote ε V K) (hwrote : note.wrote = false) :
    C.Edits (.fail e : Proc ε Op Ret α) note := hwrote

/-- A check before the write refuses, or the rest makes the edit. -/
theorem edits_check (x : Except ε α) (k : α → Proc ε Op Ret β) (note : EditNote ε V K)
    (hwrote : note.wrote = false) (hk : ∀ a, x = .ok a → C.Edits (k a) note) :
    C.Edits (Proc.ofExcept x >>= k) note := by
  cases x with
  | error e => exact edits_fail e note hwrote
  | ok a => exact hk a rfl

/-- An operation that neither looks at the cell nor writes it. -/
def Aside (C : Cell ε Op Ret V K) (op : Op) : Prop :=
  C.looks op = false ∧ C.writes op = none ∧ C.leaves op

theorem Aside.permits (op : Op) (h : C.Aside op) (note : EditNote ε V K) :
    C.discipline.permits op note := by
  rcases h with ⟨hlooks, hwrites, hleaves⟩
  refine ⟨fun hlook => absurd hlook (by simp [hlooks]), ?_⟩
  rw [hwrites]
  exact hleaves

theorem Aside.after (op : Op) (h : C.Aside op) (r : Except ε (Ret op)) (note : EditNote ε V K) :
    C.discipline.after op r note = note := by
  simp [discipline, h.1, h.2.1]

/-- A part of a program that goes about something else keeps the note. -/
theorem obeys_aside {Q : Except ε α → EditNote ε V K → Prop} (p : Proc ε Op Ret α)
    (hp : p.Uses C.Aside) (note : EditNote ε V K) (hQ : ∀ r, Q r note) :
    p.Obeys C.discipline Q note := by
  induction p with
  | ret a => exact hQ (.ok a)
  | fail e => exact hQ (.error e)
  | act op k ih =>
      refine ⟨hp.1.permits op note, fun r => ?_⟩
      rw [hp.1.after op r note]
      exact ih r (hp.2 r)

/-- Before the write such a part may fail. -/
theorem edits_aside (p : Proc ε Op Ret α) (hp : p.Uses C.Aside) (k : α → Proc ε Op Ret β)
    (note : EditNote ε V K) (hwrote : note.wrote = false) (hk : ∀ a, C.Edits (k a) note) :
    C.Edits (p >>= k) note := by
  refine Proc.obeys_bind p k note (obeys_aside p hp note (fun r => ?_))
  cases r with
  | error e => exact hwrote
  | ok a => exact hk a

/-- After the write it may not, so its failure is caught. -/
theorem edits_attempt (p : Proc ε Op Ret α) (hp : p.Uses C.Aside)
    (k : Except ε α → Proc ε Op Ret β) (note : EditNote ε V K)
    (hk : ∀ r, C.Edits (k r) note) : C.Edits (p.attempt >>= k) note :=
  Proc.obeys_bind _ _ note (Proc.obeys_attempt p note (obeys_aside p hp note hk))

/-- Looking at the cell fails, or goes on with what was seen. -/
theorem edits_look (op : Op) (k : Ret op → Proc ε Op Ret β) (note : EditNote ε V K)
    (hlooks : C.looks op = true) (hvia : C.via op = note.via) (hwrites : C.writes op = none)
    (hleaves : C.leaves op) (hwrote : note.wrote = false)
    (hk : ∀ a, C.Edits (k a) { note with seen := C.saw op (.ok a) }) :
    C.Edits (Proc.call op >>= k) note := by
  have hafter : ∀ r, C.discipline.after op r note = { note with seen := C.saw op r } := by
    intro r
    simp [discipline, hlooks, hwrites]
  refine Proc.obeys_bind _ k note (Proc.obeys_call op note ⟨fun _ => hvia, ?_⟩ (fun r => ?_))
  · rw [hwrites]
    exact hleaves
  · rw [hafter r]
    cases r with
    | error e => exact hwrote
    | ok a => exact hk a

/-- The write of an edit of what was seen. -/
theorem edits_write (op : Op) (k : Ret op → Proc ε Op Ret β) (note : EditNote ε V K) (v new : V)
    (hlooks : C.looks op = false) (hwrites : C.writes op = some new) (hvia : C.via op = note.via)
    (hwrote : note.wrote = false) (hseen : note.seen = some v) (hedit : note.edit v = .ok new)
    (hfits : C.fits v new) (hk : ∀ a, C.Edits (k a) { note with wrote := true }) :
    C.Edits (Proc.call op >>= k) note := by
  -- The note changes only when the write is answered.
  have herror : ∀ e, C.discipline.after op (.error e) note = note := by
    intro e
    simp [discipline, hlooks, hwrites]
  have hok : ∀ a, C.discipline.after op (.ok a) note = { note with wrote := true } := by
    intro a
    simp [discipline, hlooks, hwrites]
  refine Proc.obeys_bind _ k note (Proc.obeys_call op note ⟨?_, ?_⟩ (fun r => ?_))
  · exact fun hlook => absurd hlook (by simp [hlooks])
  · rw [hwrites]
    exact ⟨hwrote, hvia, v, hseen, hedit, hfits⟩
  · cases r with
    | error e =>
        rw [herror e]
        exact hwrote
    | ok a =>
        rw [hok a]
        exact hk a

end Programs

/-! ## Serial edits -/

/-- The edits of the given programs, one after another. -/
def applyAll (edits : Nat → V → Except ε V) (order : List Nat) (first : V) : Except ε V :=
  order.foldlM (fun v i => edits i v) first

theorem applyAll_snoc (edits : Nat → V → Except ε V) (order : List Nat) (i : Nat) (first v new : V)
    (horder : applyAll edits order first = .ok v) (hedit : edits i v = .ok new) :
    applyAll edits (order ++ [i]) first = .ok new := by
  unfold applyAll at horder ⊢
  rw [List.foldlM_append, horder]
  change (edits i v >>= fun new => .ok new) = .ok new
  rw [hedit]
  rfl

/-- The invariant: the programs that have written did so in the given order,
    and the cell holds what that gives; a program that is still fresh saw the
    value the cell holds. -/
structure Serial (C : Cell ε Op Ret V K) (cell : σ → Option V) (isOpen : K → Prop)
    (edits : Nat → V → Except ε V) (first : V) (tr : List (Nat × Op)) (s : σ)
    (note : Nat → EditNote ε V K) : Prop where
  edit : ∀ i, (note i).edit = edits i
  reached : ∀ i v, (note i).seen = some v → isOpen (note i).via
  latest : ∀ i v, C.fresh i tr = true → (note i).seen = some v → cell s = some v
  order : ∃ order : List Nat, order.Nodup ∧ (∀ i, i ∈ order ↔ (note i).wrote = true) ∧
    ∃ v, cell s = some v ∧ applyAll edits order first = .ok v

section Runs

variable {C : Cell ε Op Ret V K} {exec : (op : Op) → σ → Except ε (Ret op) × σ}
  {cell : σ → Option V} {isOpen : K → Prop} {edits : Nat → V → Except ε V} {first : V}

/-- An operation that changes neither the cell nor whether its program has
    written keeps the order, whatever it saw. -/
theorem Serial.kept (tr : List (Nat × Op)) (s : σ) (note : Nat → EditNote ε V K) (i : Nat) (op : Op)
    (hJ : C.Serial cell isOpen edits first tr s note) (s' : σ) (seen : Option V)
    (hcell : cell s' = cell s) (hreached : ∀ v, seen = some v → isOpen (note i).via)
    (hlatest : ∀ j v, C.fresh j (tr ++ [(i, op)]) = true →
      (if j = i then seen else (note j).seen) = some v → cell s = some v) :
    C.Serial cell isOpen edits first (tr ++ [(i, op)]) s'
      (Function.update note i { note i with seen := seen }) := by
  -- Only what the thread has seen changes in its note.
  have hnote : ∀ j, Function.update note i { note i with seen := seen } j =
      { note j with seen := if j = i then seen else (note j).seen } := by
    intro j
    by_cases hji : j = i
    · rw [hji, Function.update_self, if_pos rfl]
    · rw [Function.update_of_ne hji, if_neg hji]
  refine ⟨fun j => ?_, fun j v hv => ?_, fun j v hfresh hv => ?_, ?_⟩
  · rw [hnote j]
    exact hJ.edit j
  · rw [hnote j] at hv ⊢
    by_cases hji : j = i
    · rw [if_pos hji] at hv
      rw [hji]
      exact hreached v hv
    · rw [if_neg hji] at hv
      exact hJ.reached j v hv
  · rw [hnote j] at hv
    rw [hcell]
    exact hlatest j v hfresh hv
  · rcases hJ.order with ⟨order, hnodup, hwrote, v, hv, happly⟩
    refine ⟨order, hnodup, fun j => ?_, v, hcell.trans hv, happly⟩
    rw [hnote j]
    exact hwrote j

/-- A program that replaces the value the cell holds by its edit of that value
    comes next in the order. -/
theorem Serial.written (tr : List (Nat × Op)) (s : σ) (note : Nat → EditNote ε V K) (i : Nat)
    (op : Op) (hJ : C.Serial cell isOpen edits first tr s note) (hwrote : (note i).wrote = false)
    (v new : V) (hcell : cell s = some v) (hedit : (note i).edit v = .ok new)
    (hstale : ∀ j, C.fresh j (tr ++ [(i, op)]) = false) (s' : σ) (hcell' : cell s' = some new) :
    C.Serial cell isOpen edits first (tr ++ [(i, op)]) s'
      (Function.update note i { note i with wrote := true }) := by
  have hnote : ∀ j, Function.update note i { note i with wrote := true } j =
      { note j with wrote := if j = i then true else (note j).wrote } := by
    intro j
    by_cases hji : j = i
    · rw [hji, Function.update_self, if_pos rfl]
    · rw [Function.update_of_ne hji, if_neg hji]
  refine ⟨fun j => ?_, fun j u hu => ?_, fun j u hfresh _ => ?_, ?_⟩
  · rw [hnote j]
    exact hJ.edit j
  · rw [hnote j] at hu ⊢
    exact hJ.reached j u hu
  · rw [hstale j] at hfresh
    exact (nomatch hfresh)
  · rcases hJ.order with ⟨order, hnodup, hmem, u, hu, happly⟩
    -- The thread had not written, so its edit goes to the end of the order.
    have hnew : i ∉ order := by
      rw [hmem i, hwrote]
      simp
    have huv : u = v := Option.some.inj (hu.symm.trans hcell)
    rw [hJ.edit i] at hedit
    rw [huv] at happly
    refine ⟨order ++ [i], List.nodup_append.mpr ⟨hnodup, List.nodup_singleton i, ?_⟩,
      fun j => ?_, new, hcell', applyAll_snoc edits order i first v new happly hedit⟩
    · rintro j hj k hk rfl
      rw [List.mem_singleton.mp hk] at hj
      exact hnew hj
    · rw [hnote j, List.mem_append, List.mem_singleton, hmem j]
      by_cases hji : j = i
      · simp [hji]
      · simp [hji]

/-- One operation keeps the invariant, as long as writes are fresh. -/
theorem Serial.step (hC : C.Lawful exec cell isOpen) (tr : List (Nat × Op)) (s : σ)
    (note : Nat → EditNote ε V K) (i : Nat) (op : Op)
    (hJ : C.Serial cell isOpen edits first tr s note) (hok : C.OnLatest tr i op)
    (hpermits : C.discipline.permits op (note i)) :
    C.Serial cell isOpen edits first (tr ++ [(i, op)]) (exec op s).2
      (Function.update note i (C.discipline.after op (exec op s).1 (note i))) := by
  rcases hpermits with ⟨hvia, hwrite⟩
  cases hwrites : C.writes op with
  | none =>
      rw [hwrites] at hwrite
      have hafter : C.discipline.after op (exec op s).1 (note i) =
          { note i with seen := if C.looks op then C.saw op (exec op s).1 else (note i).seen } := by
        simp [discipline, hwrites]
      rw [hafter]
      refine hJ.kept tr s note i op _ _ (hC.leave op s hwrite) (fun v hv => ?_)
        (fun j v hfresh hv => ?_)
      · by_cases hlooks : C.looks op = true
        · rw [if_pos hlooks] at hv
          rw [← hvia hlooks]
          exact (hC.look op s v hlooks hv).2
        · rw [if_neg hlooks] at hv
          exact hJ.reached i v hv
      · rw [fresh_snoc, hwrites] at hfresh
        by_cases hlooks : j = i ∧ C.looks op = true
        · rw [if_pos hlooks.1, if_pos hlooks.2] at hv
          exact (hC.look op s v hlooks.2 hv).1
        · -- Nothing new was seen by this program, nor written by anybody.
          rw [if_neg (by rintro ⟨rfl, hl⟩; exact hlooks ⟨rfl, hl⟩)] at hfresh
          refine hJ.latest j v (by simpa using hfresh) ?_
          by_cases hji : j = i
          · rw [if_pos hji, if_neg (fun hl => hlooks ⟨hji, hl⟩)] at hv
            rw [hji]
            exact hv
          · rw [if_neg hji] at hv
            exact hv
  | some new =>
      rw [hwrites] at hwrite
      rcases hwrite with ⟨hwrote, hsame, v, hseen, hedit, hfits⟩
      have hlooks : C.looks op = false := by
        by_contra hl
        rw [hC.apart op (by simpa using hl)] at hwrites
        exact (nomatch hwrites)
      -- After a write no program is fresh any more.
      have hstale : ∀ j, C.fresh j (tr ++ [(i, op)]) = false := by
        intro j
        rw [fresh_snoc, hlooks, hwrites]
        simp
      cases hr : (exec op s).1 with
      | error e =>
          have hafter : C.discipline.after op (.error e) (note i) =
              { note i with seen := (note i).seen } := by
            simp [discipline, hlooks, hwrites]
          rw [hafter]
          refine hJ.kept tr s note i op _ _ (hC.refuse op s new e hwrites hr)
            (fun u hu => hJ.reached i u hu) (fun j u hfresh _ => ?_)
          rw [hstale j] at hfresh
          exact (nomatch hfresh)
      | ok a =>
          have hafter : C.discipline.after op (.ok a) (note i) =
              { note i with wrote := true } := by
            simp [discipline, hlooks, hwrites]
          rw [hafter]
          have hcell : cell s = some v := hJ.latest i v (hok (by rw [hwrites]; rfl)) hseen
          have hopen : isOpen (C.via op) := by
            rw [hsame]
            exact hJ.reached i v hseen
          exact hJ.written tr s note i op hwrote v new hcell hedit hstale _
            (hC.write op s new v a hwrites hr hcell hopen hfits)

/-- Programs that each make one edit of the cell, interleaved in any way in
    which every write is fresh: in every state they reach, the cell holds what
    the edits of those that have written give, one after another. All that
    returned are among them and none that failed. -/
theorem serial (hC : C.Lawful exec cell isOpen) (start : Pool ε Op Ret σ)
    (notes : Nat → EditNote ε V K) (hedit : ∀ i, (notes i).edit = edits i)
    (hseen : ∀ i, (notes i).seen = none) (hwrote : ∀ i, (notes i).wrote = false)
    (blank : EditNote ε V K) (hstart : Pool.Notes C.Edits blank start notes)
    (hcell : cell start.shared = some first) (hblank : blank.wrote = false)
    (tr : List (Nat × Op)) (P : Pool ε Op Ret σ)
    (hrun : Pool.RunWhile exec (fun _ => False) (fun tr _ i op => C.OnLatest tr i op) start tr P) :
    ∃ order : List Nat, order.Nodup ∧
      (∀ i ∈ order, i < P.threads.length ∧ ∀ e, P.threads[i]? ≠ some (.fail e)) ∧
      (∀ i, P.threads[i]? = some (.ret ()) → i ∈ order) ∧
      ∃ v, cell P.shared = some v ∧ applyAll edits order first = .ok v := by
  have hfirst : C.Serial cell isOpen edits first [] start.shared notes := by
    refine ⟨hedit, fun i v hv => ?_, fun i v _ hv => ?_, [], List.nodup_nil, fun i => ?_, first,
      hcell, rfl⟩
    · exact absurd (hv.symm.trans (hseen i)) (by simp)
    · exact absurd (hv.symm.trans (hseen i)) (by simp)
    · simp [hwrote i]
  rcases Pool.runWhile_notes C.discipline C.Edits (fun _ _ _ hact => hact) blank
    (fun _ hp => hp.elim) (C.Serial cell isOpen edits first)
    (fun tr s note i op hJ hok hpermits => hJ.step hC tr s note i op hok hpermits)
    start notes hstart hfirst tr P hrun with ⟨note, hnotes, hJ⟩
  -- The order of the writes is the serial order; who failed did not write, who returned
  -- did.
  rcases hJ.order with ⟨order, hnodup, hmem, hvalue⟩
  refine ⟨order, hnodup, fun i hi => ⟨?_, fun e hfail => ?_⟩, fun i hret => ?_, hvalue⟩
  · by_contra hlen
    rw [hmem i, hnotes.later i (Nat.le_of_not_lt hlen), hblank] at hi
    exact (nomatch hi)
  · have hnot : (note i).wrote = false := hnotes.threads i _ hfail
    rw [hmem i, hnot] at hi
    exact (nomatch hi)
  · exact (hmem i).mpr (hnotes.threads i _ hret)

end Runs

end Cell
