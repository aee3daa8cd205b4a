import Cuttlegate.Lib.Json
import Mathlib

/-!
# Documents Kept by a Database

A column that keeps JSON documents in a form of its own. What it gives back is
the document that was written up to three liberties: the fields of an object
come in another order, of a key that occurs twice only the last value is left,
and a number is spelt in the database's way.

A program reads such a document with a decoder that fills a record field by
field. `StableAt` says that the decoder reads from whatever the column gives
back what it reads from the document itself. Scalars are always stable, a list
is stable when its elements are, and a record is stable when its document
names every field once and no two fields share anything, whatever the order
the fields come back in.

## Main definitions

* `Json.lastEntries`: What is left of repeated keys.
* `Json.Same`: The same document, in the column's form.
* `JsonColumn`: A column of documents.
* `Json.StableAt`: A decoder reads the same from both forms.
* `Json.ofInt`: An integer as it is written.
* `Json.form`, `JsonColumn.jsonb`: A column that sorts keys by length.

## Theorems

* `Json.decodeInt_ofInt`: An integer is read back.
* `Json.decodeList_map`: A list is read back when its elements are.
* `Json.decodeRecord_perm`: The order of fields does not matter.
* `Json.stableAt_string`, `Json.stableAt_int`: Scalars are stable.
* `Json.stableAt_list`, `Json.stableAt_record`: So are lists and records.
* `JsonColumn.decode_read`: What a stable decoder reads from a column.
* `Json.form_same`: The form of such a column is the same document.
-/

namespace Json

/-- The entries of an object when a later one replaces an earlier one of the
    same key. -/
def lastEntries {α : Type} : List (String × α) → List (String × α)
  | [] => []
  | kv :: rest =>
      if rest.any (fun other => other.1 == kv.1) then lastEntries rest
      else kv :: lastEntries rest

/-- The second document is the first one in the form of a column: integers
    denote what they did, objects keep the last value of each key in some
    order, and everything else is as it was. -/
inductive Same : Json → Json → Prop
  | null : Same .null .null
  | bool (b : Bool) : Same (.bool b) (.bool b)
  | num (text text' : String) (h : ∀ n, text.toInt? = some n → text'.toInt? = some n) :
      Same (.num text) (.num text')
  | str (s : String) : Same (.str s) (.str s)
  | arr (elems elems' : List Json) (h : List.Forall₂ Same elems elems') :
      Same (.arr elems) (.arr elems')
  | obj (fields fields' kept : List (String × Json))
      (hkeys : kept.map Prod.fst = (lastEntries fields).map Prod.fst)
      (hvalues : List.Forall₂ Same ((lastEntries fields).map Prod.snd) (kept.map Prod.snd))
      (hperm : kept.Perm fields') : Same (.obj fields) (.obj fields')

theorem lastEntries_nodup {α : Type} (fields : List (String × α))
    (h : (fields.map Prod.fst).Nodup) : lastEntries fields = fields := by
  induction fields with
  | nil => rfl
  | cons kv rest ih =>
      rw [List.map_cons, List.nodup_cons] at h
      have hfresh : ¬ rest.any (fun other => other.1 == kv.1) = true := by
        rw [List.any_eq_true]
        rintro ⟨other, hother, hkey⟩
        exact h.1 (beq_iff_eq.mp hkey ▸ List.mem_map_of_mem hother)
      rw [lastEntries, if_neg hfresh, ih h.2]

/-! ## Writing and reading back -/

/-- An integer as it is written. -/
def ofInt (n : Int) : Json := .num n.repr

theorem decodeInt_ofInt (old n : Int) (hlow : -2 ^ 63 ≤ n) (hhigh : n < 2 ^ 63) :
    decodeInt old (ofInt n) = some n := by
  rw [ofInt, decodeInt, Int.toInt?_repr, Option.filter_some, if_pos]
  exact decide_eq_true ⟨hlow, hhigh⟩

theorem decodeList_map {α β : Type} (encode : α → Json) (elem : Json → Option β) (f : α → β)
    (as : List α) (h : ∀ a ∈ as, elem (encode a) = some (f a)) :
    decodeList elem (.arr (as.map encode)) = some (as.map f) := by
  rw [decodeList]
  induction as with
  | nil => rfl
  | cons a as ih =>
      rw [List.map_cons, List.mapM_cons, h a List.mem_cons_self,
        ih (fun b hb => h b (List.mem_cons_of_mem a hb))]
      rfl

theorem named_self (field : String) : named field field = true := beq_self_eq_true _

/-! ## The order of fields -/

section Record

variable {α : Type} (set : String → Json → α → Option α)

/-- Two fields can be filled in either order. -/
def Swap (key key' : String) : Prop :=
  ∀ v v' a, (set key v a).bind (set key' v') = (set key' v' a).bind (set key v)

theorem Swap.symm (key key' : String) (h : Swap set key key') : Swap set key' key :=
  fun v v' a => (h v' v a).symm

/-- No two of the fields share anything. -/
def Independent (keys : List String) : Prop := keys.Pairwise (Swap set)

theorem decodeRecord_perm (fields fields' : List (String × Json)) (hperm : fields.Perm fields')
    (hset : Independent set (fields.map Prod.fst)) (r : α) :
    decodeRecord set r (.obj fields) = decodeRecord set r (.obj fields') := by
  simp only [decodeRecord]
  induction hperm generalizing r with
  | nil => rfl
  | cons kv hp ih =>
      rw [Independent, List.map_cons, List.pairwise_cons] at hset
      rw [List.foldlM_cons, List.foldlM_cons]
      exact bind_congr (fun a => ih hset.2 a)
  | swap kv kv' rest =>
      rw [Independent, List.map_cons, List.pairwise_cons] at hset
      have hswap := hset.1 kv.1 List.mem_cons_self kv'.2 kv.2 r
      simp only [List.foldlM_cons, Option.bind_eq_bind, ← Option.bind_assoc, hswap]
  | trans h₁ h₂ ih₁ ih₂ =>
      have hset₂ := ((h₁.map Prod.fst).pairwise_iff (Swap.symm set _ _)).mp hset
      rw [ih₁ hset, ih₂ hset₂]

end Record

/-! ## Stable decoders -/

/-- What is read from the document is read from every form of it. -/
def StableAt {α : Type} (dec : Json → Option α) (v : Json) : Prop :=
  ∀ v' r, Same v v' → dec v = some r → dec v' = some r

theorem stableAt_string (old : String) (v : Json) : StableAt (decodeString old) v := by
  intro v' r hsame hdec
  cases hsame with
  | null | str => exact hdec
  | bool | num | arr | obj => exact (nomatch hdec)

theorem stableAt_int (old : Int) (v : Json) : StableAt (decodeInt old) v := by
  intro v' r hsame hdec
  cases hsame with
  | num text text' h =>
      rw [decodeInt, Option.filter_eq_some_iff] at hdec ⊢
      exact ⟨h r hdec.1, hdec.2⟩
  | null => exact hdec
  | bool | str | arr | obj => exact (nomatch hdec)

/-- A stable decoder, with its result put somewhere. -/
theorem stableAt_map {α β : Type} (dec : Json → Option α) (f : α → β) (v : Json)
    (h : StableAt dec v) : StableAt (fun v => (dec v).map f) v := by
  intro v' r hsame hdec
  rcases Option.map_eq_some_iff.mp hdec with ⟨a, ha, hr⟩
  exact Option.map_eq_some_iff.mpr ⟨a, h v' a hsame ha, hr⟩

/-- Two fields that are each filled on their own. -/
theorem bind_map_swap {α β γ : Type} (o : Option α) (o' : Option β) (f : α → β → γ) :
    (o.bind fun a => o'.map (f a)) = o'.bind fun b => o.map (fun a => f a b) := by
  cases o <;> cases o' <;> rfl

theorem stableAt_list {α : Type} (elem : Json → Option α) (elems : List Json)
    (helem : ∀ v ∈ elems, StableAt elem v) : StableAt (decodeList elem) (.arr elems) := by
  intro v' rs hsame hdec
  cases hsame with
  | arr _ elems' h =>
      rw [decodeList] at hdec ⊢
      induction h generalizing rs with
      | nil => exact hdec
      | @cons v v' vs vs' hv hrest ih =>
          simp only [List.mapM_cons, Option.bind_eq_bind, Option.bind_eq_some_iff,
            Option.pure_def, Option.some.injEq] at hdec ⊢
          rcases hdec with ⟨r, hr, rs', hrs, heq⟩
          exact ⟨r, helem v List.mem_cons_self v' r hv hr, rs',
            ih (fun x hx => helem x (List.mem_cons_of_mem v hx)) rs' hrs, heq⟩

/-- A record is stable when its document names every field once, the fields
    can be filled in any order, and each is filled by a stable decoder. -/
theorem stableAt_record {α : Type} (set : String → Json → α → Option α)
    (fields : List (String × Json)) (hkeys : (fields.map Prod.fst).Nodup)
    (hset : Independent set (fields.map Prod.fst))
    (hvalues : ∀ kv ∈ fields, ∀ a, StableAt (fun v => set kv.1 v a) kv.2) (r : α) :
    StableAt (decodeRecord set r) (.obj fields) := by
  intro v' x hsame hdec
  cases hsame with
  | obj _ fields' kept hkept hsame hperm =>
      rw [lastEntries_nodup fields hkeys] at hkept hsame
      rw [← decodeRecord_perm set kept fields' hperm (hkept ▸ hset)]
      simp only [decodeRecord] at hdec ⊢
      clear hkeys hset hperm
      -- Field by field: the same key, and the value in the column's form.
      induction fields generalizing kept r with
      | nil =>
          rw [List.map_eq_nil_iff.mp hkept]
          exact hdec
      | cons kv rest ih =>
          cases kept with
          | nil => exact (nomatch hkept)
          | cons kv' rest' =>
              rw [List.map_cons, List.map_cons, List.cons.injEq] at hkept
              rw [List.map_cons, List.map_cons, List.forall₂_cons] at hsame
              simp only [List.foldlM_cons, Option.bind_eq_bind,
                Option.bind_eq_some_iff] at hdec ⊢
              rcases hdec with ⟨a, ha, hrest⟩
              refine ⟨a, ?_, ih (fun x hx => hvalues x (List.mem_cons_of_mem kv hx)) a hrest
                rest' hkept.2 hsame.2⟩
              rw [hkept.1]
              exact hvalues kv List.mem_cons_self r kv'.2 a hsame.1 ha

end Json

/-- A column of documents. A refused document is not written. -/
structure JsonColumn where
  /-- The form in which a document is given back. -/
  read : Json → Option Json
  same : ∀ v v', read v = some v' → v.Same v'

/-- A column that may have no document. -/
def JsonColumn.readNullable (col : JsonColumn) : Option Json → Option (Option Json)
  | none => some none
  | some v => (col.read v).map some

/-- What a stable decoder reads from a document, it reads from the column. -/
theorem JsonColumn.decode_read {α : Type} (col : JsonColumn) (dec : Json → Option α)
    (v v' : Json) (r : α) (hread : col.read v = some v') (hstable : Json.StableAt dec v)
    (hdec : dec v = some r) : dec v' = some r :=
  hstable v' r (col.same v v' hread) hdec

/-! ## A column that evaluates -/

namespace Json

/-- Shorter keys come first, and keys of one length in their order. -/
def KeyBefore (a b : String × Json) : Prop :=
  a.1.utf8ByteSize < b.1.utf8ByteSize ∨ (a.1.utf8ByteSize = b.1.utf8ByteSize ∧ a.1 ≤ b.1)

instance : DecidableRel KeyBefore :=
  fun _ _ => inferInstanceAs (Decidable (_ ∨ _))

mutual

/-- The form in which a column keeps a document when it sorts the keys of
    every object. -/
def form : Json → Json
  | .arr elems => .arr (forms elems)
  | .obj fields => .obj ((lastEntries (formFields fields)).insertionSort KeyBefore)
  | v => v

def forms : List Json → List Json
  | [] => []
  | v :: vs => form v :: forms vs

def formFields : List (String × Json) → List (String × Json)
  | [] => []
  | (key, v) :: rest => (key, form v) :: formFields rest

end

theorem formFields_any (key : String) (fields : List (String × Json)) :
    (formFields fields).any (fun other => other.1 == key)
      = fields.any (fun other => other.1 == key) := by
  induction fields with
  | nil => rfl
  | cons kv rest ih => rw [formFields, List.any_cons, List.any_cons, ih]

theorem lastEntries_formFields_keys (fields : List (String × Json)) :
    (lastEntries (formFields fields)).map Prod.fst = (lastEntries fields).map Prod.fst := by
  induction fields with
  | nil => rfl
  | cons kv rest ih =>
      rw [formFields, lastEntries, lastEntries, formFields_any]
      split
      · exact ih
      · rw [List.map_cons, List.map_cons, ih]

mutual

theorem form_same : ∀ v, Same v (form v)
  | .null => .null
  | .bool b => .bool b
  | .num text => .num text text (fun _ h => h)
  | .str s => .str s
  | .arr elems => .arr elems _ (forms_same elems)
  | .obj fields => .obj fields _ _ (lastEntries_formFields_keys fields) (formFields_same fields)
      (List.perm_insertionSort _ _).symm

theorem forms_same : ∀ vs, List.Forall₂ Same vs (forms vs)
  | [] => .nil
  | v :: vs => .cons (form_same v) (forms_same vs)

theorem formFields_same : ∀ fields, List.Forall₂ Same ((lastEntries fields).map Prod.snd)
    ((lastEntries (formFields fields)).map Prod.snd)
  | [] => .nil
  | (key, v) :: rest => by
      rw [formFields, lastEntries, lastEntries, formFields_any]
      split
      · exact formFields_same rest
      · exact .cons (form_same v) (formFields_same rest)

end

end Json

/-- Such a column, for the concrete runs. It refuses nothing. -/
def JsonColumn.jsonb : JsonColumn where
  read v := some v.form
  same v _ h := Option.some.inj h ▸ v.form_same
