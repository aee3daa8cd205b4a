import Mathlib.Data.String.Basic
import Cuttlegate.Lib.OffsetPages
import Cuttlegate.Theory.HistoryPages

/-!
# Pages of the Flag List

Whether the pages of the flag list together are the list.

A page is a slice of the flags sorted by one column, and every request sorts
anew. Flags that tie in the column come in any order, so unless the last flag of
every page is less than the next one, a flag can be on two pages or on none.

A page number is any positive number of 64 bits, and the offset is computed
from it with 64 bits as well. For a page far beyond the last one it wraps
around. Then it is negative, which the database refuses, or it may fall on a
place where there are flags.

## Main definitions

* `Store.flagsMatching`, `FlagListFilter.less`: The flags and their order.
* `readPages`: A client that reads pages by their numbers.
* `Addressable`: The numbers and offsets of all pages fit.

## Theorems

* `flagList_answers`: What a request for a page is answered.
* `readPages_some`, `readPages_good`: What a client reads, and when.
* `flag_pages_exact_iff`: When the pages are the list, and when a page beyond
  them is empty.
-/

namespace Cuttlegate

/-! ## Page numbers -/

/-- The value of a list of digits, as it is computed. -/
theorem digits_value (ds : List Char) (n : Nat) :
    ds.foldl (fun (n : Int) c => 10 * n + (c.toNat - '0'.toNat : Nat)) n =
      (Nat.ofDigitChars 10 ds n : Nat) := by
  induction ds generalizing n with
  | nil => rfl
  | cons d ds ih =>
      rw [Nat.ofDigitChars_cons, List.foldl_cons, ← ih]
      rfl

theorem atoi_repr (k : Nat) :
    atoi (Nat.repr k) = if k < 2 ^ 63 then some (Int64.ofNat k) else none := by
  have hlist : (Nat.repr k).toList = Nat.toDigits 10 k := by simp [Nat.repr]
  have hdigits : ∀ c ∈ Nat.toDigits 10 k, c.isDigit = true := fun c hc =>
    Nat.isDigit_of_mem_toDigits (by decide) (by decide) hc
  have hvalue := digits_value (Nat.toDigits 10 k) 0
  rw [Nat.ofDigitChars_ten_toDigits] at hvalue
  have hne : Nat.toDigits 10 k ≠ [] := List.ne_nil_of_length_pos Nat.length_toDigits_pos
  have hall : (Nat.toDigits 10 k).all Char.isDigit = true := List.all_eq_true.mpr hdigits
  -- A digit is no sign.
  have hsign : ∀ c cs, Nat.toDigits 10 k = c :: cs → c ≠ '-' ∧ c ≠ '+' := by
    intro c cs hcs
    have hc := hdigits c (by rw [hcs]; exact List.mem_cons_self)
    constructor
    · rintro rfl
      exact absurd hc (by decide)
    · rintro rfl
      exact absurd hc (by decide)
  unfold atoi
  rw [hlist]
  generalize Nat.toDigits 10 k = ds at *
  split
  rename_i negative digits hmatch
  have hplain : negative = false ∧ digits = ds := by
    split at hmatch
    · exact absurd rfl (hsign _ _ rfl).1
    · exact absurd rfl (hsign _ _ rfl).2
    · rw [Prod.mk.injEq] at hmatch
      exact ⟨hmatch.1.symm, hmatch.2.symm⟩
  rw [hplain.1, hplain.2]
  have hint : ds.foldl (fun (n : Int) c => 10 * n + (c.toNat - '0'.toNat : Nat)) 0 = k := hvalue
  rw [if_neg (by simp [hne, hall])]
  simp only [Bool.false_eq_true, if_false, hint]
  by_cases hfits : k < 2 ^ 63
  · rw [if_pos (by omega), if_pos hfits]
    rfl
  · rw [if_neg (by omega), if_neg hfits]

/-- A decimal number is read as a page number if it fits. -/
theorem positiveParam_repr (k : Nat) (hk : 1 ≤ k) (default : Int64) :
    positiveParam (Nat.repr k) default = if k < 2 ^ 63 then some (Int64.ofNat k) else none := by
  have hempty : Nat.repr k ≠ "" := by
    intro hnil
    have hpos := Nat.length_repr_pos (n := k)
    rw [hnil] at hpos
    exact absurd hpos (by decide)
  unfold positiveParam
  rw [if_neg hempty, atoi_repr]
  by_cases hfits : k < 2 ^ 63
  · have hone : 1 ≤ Int64.ofNat k := by
      rw [Int64.le_iff_toInt_le, Int64.toInt_ofNat_of_lt hfits]
      change (1 : Int) ≤ k
      omega
    rw [if_pos hfits, Option.filter_some, decide_eq_true hone, if_pos rfl]
  · rw [if_neg hfits]
    rfl

/-- What is accepted is positive. -/
theorem positiveParam_pos (raw : String) (default p : Int64) (hdefault : 1 ≤ default)
    (hp : positiveParam raw default = some p) : 1 ≤ p := by
  unfold positiveParam at hp
  by_cases hraw : raw = ""
  · rw [if_pos hraw, Option.some.injEq] at hp
    rw [← hp]
    exact hdefault
  · rw [if_neg hraw, Option.filter_eq_some_iff] at hp
    exact of_decide_eq_true hp.2

/-! ## The order of the list -/

/-- The comparison a filter asks for. -/
def FlagListFilter.less (filter : FlagListFilter) (collation : Collation) (a b : Flag) : Bool :=
  if filter.sortDir = "desc" then flagColumnLess collation filter.sortBy b a
  else flagColumnLess collation filter.sortBy a b

theorem strictWeak_column (collation : Collation) (sortBy : String) :
    StrictWeak (flagColumnLess collation sortBy) := by
  unfold flagColumnLess
  by_cases hkey : sortBy = "key"
  · simp only [if_pos hkey]
    exact strictWeak_comap _ collation.weak (fun f : Flag => f.key)
  by_cases hname : sortBy = "name"
  · simp only [if_neg hkey, if_pos hname]
    exact strictWeak_comap _ collation.weak (fun f : Flag => f.name)
  by_cases htype : sortBy = "type"
  · simp only [if_neg hkey, if_neg hname, if_pos htype]
    exact strictWeak_comap _ collation.weak (fun f : Flag => f.type.text)
  · simp only [if_neg hkey, if_neg hname, if_neg htype]
    exact strictWeak_key (fun f : Flag => f.createdAt)

theorem FlagListFilter.strictWeak_less (filter : FlagListFilter) (collation : Collation) :
    StrictWeak (filter.less collation) := by
  unfold FlagListFilter.less
  by_cases hdesc : filter.sortDir = "desc"
  · simp only [if_pos hdesc]
    exact strictWeak_flip _ (strictWeak_column collation filter.sortBy)
  · simp only [if_neg hdesc]
    exact strictWeak_column collation filter.sortBy

/-- The flags of a project that match a search. -/
def Store.flagsMatching (s : Store) (ilike : String → String → Bool) (projectID search : String) :
    List Flag :=
  s.flags.filter (fun f => f.projectID == projectID &&
    (search == "" || ilike f.key ("%" ++ search ++ "%") || ilike f.name ("%" ++ search ++ "%")))

/-- On the connection of the project they are what the database selects. -/
theorem matchFlags_own (s : Store) (rls : Bool) (ilike : String → String → Bool)
    (projectID search : String) :
    matchFlags ⟨some projectID, rls⟩ ilike projectID search s =
      s.flagsMatching ilike projectID search := by
  unfold matchFlags Store.flagsMatching
  refine List.filter_congr (fun f _ => ?_)
  by_cases hown : f.projectID = projectID
  · simp [Conn.sees, hown]
  · have hother : (f.projectID == projectID) = false := beq_eq_false_iff_ne.mpr hown
    simp [hother]

/-! ## Filters -/

theorem FlagListFilter.perPage_bounds (filter : FlagListFilter) :
    1 ≤ filter.normalize.perPage.toInt ∧ filter.normalize.perPage.toInt ≤ 100 := by
  have h1 : (1 : Int64).toInt = 1 := rfl
  have h50 : (50 : Int64).toInt = 50 := rfl
  have h100 : (100 : Int64).toInt = 100 := rfl
  have hfifty : ¬ (50 : Int64) > 100 := by decide
  unfold FlagListFilter.normalize
  by_cases hsmall : filter.perPage < 1
  · simp only [if_pos hsmall, if_neg hfifty, h50]
    omega
  · by_cases hbig : filter.perPage > 100
    · simp only [if_neg hsmall, if_pos hbig, h100]
      omega
    · simp only [if_neg hsmall, if_neg hbig]
      rw [Int64.lt_iff_toInt_lt] at hsmall
      rw [gt_iff_lt, Int64.lt_iff_toInt_lt] at hbig
      omega

/-- The number of flags on a page. -/
def FlagListFilter.length (filter : FlagListFilter) : Nat :=
  filter.normalize.perPage.toNatClampNeg

theorem FlagListFilter.length_bounds (filter : FlagListFilter) :
    1 ≤ filter.length ∧ filter.length ≤ 100 ∧
      filter.normalize.perPage.toInt = filter.length := by
  have hbounds := filter.perPage_bounds
  unfold FlagListFilter.length
  rw [← Int64.toNat_toInt]
  omega

/-- A positive page number is kept. -/
theorem FlagListFilter.normalize_page (filter : FlagListFilter) (p : Int64) (hp : 1 ≤ p) :
    ({ filter with page := p } : FlagListFilter).normalize =
      { filter.normalize with page := p } := by
  have hge : ¬ p < 1 := by
    rw [Int64.lt_iff_toInt_lt]
    rw [Int64.le_iff_toInt_le] at hp
    omega
  simp only [FlagListFilter.normalize, if_neg hge]

/-- The page does not matter for whether the rest of a query is accepted. -/
theorem parseQuery_page (q : FlagListQuery) (filter : FlagListFilter)
    (hquery : FlagHandler.parseQuery { q with page := "" } = .ok filter) (raw : String) :
    FlagHandler.parseQuery { q with page := raw } =
      match positiveParam raw 1 with
      | some p => .ok { filter with page := p }
      | none => .error "page must be a positive integer" := by
  have hone : positiveParam "" 1 = some 1 := rfl
  unfold FlagHandler.parseQuery at hquery ⊢
  simp only [hone, bind, Except.bind] at hquery ⊢
  cases hpage : positiveParam raw 1 with
  | none => rfl
  | some p =>
      cases hper : positiveParam q.perPage 50 with
      | none =>
          rw [hper] at hquery
          cases hquery
      | some perPage =>
          simp only [hper] at hquery ⊢
          by_cases hsort : q.sortBy ≠ "" ∧ q.sortBy ∉ ["key", "name", "type", "created_at"]
          · rw [if_pos hsort] at hquery
            cases hquery
          · rw [if_neg hsort] at hquery ⊢
            by_cases hdir : q.sortDir ≠ "" ∧ q.sortDir ≠ "asc" ∧ q.sortDir ≠ "desc"
            · rw [if_pos hdir] at hquery
              cases hquery
            · rw [if_neg hdir] at hquery ⊢
              rw [← Except.ok.inj hquery]
              rfl

/-! ## Requests -/

section Requests

variable (h : HttpHost) (ctx : Ctx) (projSlug : String) (q : FlagListQuery)
  (filter : FlagListFilter) (proj : Project)

/-- The offset of a page, as it is computed. -/
def FlagListFilter.offset (filter : FlagListFilter) (p : Int64) : Int64 :=
  (p - 1) * filter.normalize.perPage

/-- The offset is computed with 64 bits. -/
theorem FlagListFilter.offset_toInt (filter : FlagListFilter) (p : Int64) (hp : 1 ≤ p) :
    (filter.offset p).toInt = ((p.toInt - 1) * filter.length).bmod (2 ^ 64) := by
  have hone : (1 : Int64).toInt = 1 := rfl
  have hlt := p.toInt_lt
  rw [Int64.le_iff_toInt_le, hone] at hp
  have hpred : (p - 1).toInt = p.toInt - 1 := by
    rw [Int64.toInt_sub, hone]
    exact Int.bmod_eq_of_le (by omega) (by omega)
  rw [FlagListFilter.offset, Int64.toInt_mul, hpred, filter.length_bounds.2.2]

/-- The rows the database returns for a page. -/
def flagPage (order : Sorter) (s : Store) (p : Int64) : List Flag :=
  ((order.sort (filter.normalize.less h.host.collation)
    (s.flagsMatching h.host.ilike proj.id filter.search)).drop
      (filter.offset p).toNatClampNeg).take filter.length

variable (hfails : ∀ k, h.host.fails k = false) (htenant : ctx.tenant = some proj.id)
  (hquery : FlagHandler.parseQuery { q with page := "" } = .ok filter)

include hfails htenant in
/-- The page of a request, or the error about a negative offset. -/
theorem run_listByProjectPaginated (p : Int64) (hp : 1 ≤ p) (w : World) :
    Proc.run (exec h.host)
        (FlagService.listByProjectPaginated ctx proj.id { filter with page := p }) w =
      (if filter.offset p < 0 then .error .internal
        else .ok (flagPage h filter proj (h.host.order (w.calls + 1)) w.store p,
          (w.store.flagsMatching h.host.ilike proj.id filter.search).length), w.tick.tick) := by
  have hmatch := matchFlags_own w.store h.host.rls h.host.ilike proj.id filter.search
  have hcount : Op.perform h.host ⟨ctx.tenant, h.host.rls⟩ w (.countFlags proj.id filter.search) =
      .ok ((w.store.flagsMatching h.host.ilike proj.id filter.search).length, w) := by
    simp only [Op.perform, World.onStore, countFlags, query, htenant, hmatch]
  -- A negative offset is refused by the database.
  have hrows : Op.perform h.host ⟨ctx.tenant, h.host.rls⟩ w.tick
      (.pageFlags proj.id { filter.normalize with page := p }) =
      if filter.offset p < 0 then .error .internal
      else .ok (flagPage h filter proj (h.host.order (w.calls + 1)) w.store p, w.tick) := by
    simp only [Op.perform, World.onStore, pageFlags, htenant, World.tick_store, World.tick_calls]
    unfold refuseIf
    by_cases hneg : filter.offset p < 0
    · rw [if_pos hneg]
      unfold FlagListFilter.offset at hneg
      simp only [if_pos hneg]
      rfl
    · rw [if_neg hneg]
      unfold FlagListFilter.offset at hneg
      simp only [if_neg hneg]
      unfold flagPage
      rw [← hmatch]
      rfl
  -- The count first, then the page.
  unfold FlagService.listByProjectPaginated
  rw [filter.normalize_page p hp]
  change Proc.run (exec h.host) (ctx.call (.countFlags proj.id filter.search) >>= fun total =>
    ctx.call (.pageFlags proj.id { filter.normalize with page := p }) >>= fun flags =>
      Proc.ret (flags, total)) w = _
  rw [run_call_ok ctx (.countFlags proj.id filter.search) _ w w _ (hfails _) hcount]
  by_cases hneg : filter.offset p < 0
  · rw [if_pos hneg] at hrows ⊢
    rw [run_call_error ctx _ _ w.tick _ (hfails _) hrows]
  · rw [if_neg hneg] at hrows ⊢
    rw [run_call_ok ctx _ _ w.tick w.tick _ (hfails _) hrows]
    rfl

include hfails htenant hquery in
/-- What a request for a page is answered. -/
theorem flagList_answers (raw : String) (p : Int64) (hp : positiveParam raw 1 = some p)
    (s : HttpState) (htx : s.tx = none ∨ s.tx = some none)
    (hproj : s.world.store.projectAt projSlug = some proj) :
    Proc.run (httpExec h) (FlagHandler.list ctx projSlug { q with page := raw }) s =
      (.ok (if filter.offset p < 0 then writeError .internal
        else ⟨200, .flags
          (flagPage h filter proj (h.host.order (s.world.calls + 2)) s.world.store p)
          (s.world.store.flagsMatching h.host.ilike proj.id filter.search).length p
          filter.normalize.perPage⟩),
        { s with world := s.world.tick.tick.tick }) := by
  have hpos := positiveParam_pos raw 1 p (by decide) hp
  have hparse := parseQuery_page q filter hquery raw
  rw [hp] at hparse
  have hrun := run_listByProjectPaginated h ctx filter proj hfails htenant p hpos s.world.tick
  have hreads : Proc.Uses Call.sparesTx
      (FlagService.listByProjectPaginated ctx proj.id { filter with page := p }) :=
    Proc.uses_bind _ _ ((Proc.uses_call _).mpr (.inl rfl)) (fun _ =>
      Proc.uses_bind _ _ ((Proc.uses_call _).mpr (.inl rfl)) (fun _ => Proc.uses_ret _))
  unfold FlagHandler.list resolveProject
  rw [run_orWriteError_ok h (ProjectService.getBySlug ctx projSlug)
    ((Proc.uses_call _).mpr (.inl rfl)) _ s htx proj _
    (run_getBySlug h.host hfails ctx projSlug proj s.world hproj), hparse]
  simp only []
  rw [run_orWriteError, run_onDB_pool h _ hreads ⟨s.world.tick, s.tx, s.windows⟩ htx, hrun]
  by_cases hneg : filter.offset p < 0
  · simp only [if_pos hneg]
    rfl
  · simp only [if_neg hneg]
    rw [filter.normalize_page p hpos]
    rfl

include hfails hquery in
/-- What a request without a page number is answered. -/
theorem flagList_refuses (raw : String) (hp : positiveParam raw 1 = none)
    (s : HttpState) (htx : s.tx = none ∨ s.tx = some none)
    (hproj : s.world.store.projectAt projSlug = some proj) :
    Proc.run (httpExec h) (FlagHandler.list ctx projSlug { q with page := raw }) s =
      (.ok (writeError (.badRequest "page must be a positive integer")),
        { s with world := s.world.tick }) := by
  have hparse := parseQuery_page q filter hquery raw
  rw [hp] at hparse
  unfold FlagHandler.list resolveProject
  rw [run_orWriteError_ok h (ProjectService.getBySlug ctx projSlug)
    ((Proc.uses_call _).mpr (.inl rfl)) _ s htx proj _
    (run_getBySlug h.host hfails ctx projSlug proj s.world hproj), hparse]
  rfl

end Requests

/-! ## Reading pages by their numbers -/

/-- A client that reads pages one after the other, each with the total it is
    told; nothing if a page is refused. -/
def readPages (h : HttpHost) (request : Nat → HttpProg Response) :
    List Nat → HttpState → Option (List (List Flag × Nat))
  | [], _ => some []
  | k :: rest, s =>
      match Proc.run (httpExec h) (request k) s with
      | (.ok ⟨_, .flags fs total _ _⟩, s') =>
          (readPages h request rest s').map ((fs, total) :: ·)
      | _ => none

/-- The number and the offset of a page are not refused. -/
def FlagListFilter.Fits (filter : FlagListFilter) (k : Nat) : Prop :=
  k < 2 ^ 63 ∧ ¬ filter.offset (Int64.ofNat k) < 0

/-- From `2 ^ 63` on a number of 64 bits is negative. -/
theorem bmod_neg (x : Nat) (hlow : 2 ^ 63 ≤ x) (hhigh : x < 2 ^ 64) :
    ((x : Nat) : Int).bmod (2 ^ 64) < 0 := by
  have hmod : (x : Int) % ((2 ^ 64 : Nat) : Int) = x := Int.emod_eq_of_lt (by omega) (by omega)
  unfold Int.bmod
  rw [hmod]
  simp only
  rw [if_neg (by omega)]
  omega

namespace FlagListFilter

variable (filter : FlagListFilter)

/-- The number of pages. -/
def pageCount (total : Nat) : Nat := (total + filter.length - 1) / filter.length

/-- The numbers and the offsets of all pages fit into 64 bits. -/
def Addressable (total : Nat) : Prop :=
  ∀ k, 1 ≤ k → k ≤ filter.pageCount total → k < 2 ^ 63 ∧ (k - 1) * filter.length < 2 ^ 63

theorem le_pageCount (total k : Nat) (hk : 1 ≤ k) :
    k ≤ filter.pageCount total ↔ (k - 1) * filter.length < total := by
  have hlength := filter.length_bounds.1
  have hsucc : k * filter.length = (k - 1) * filter.length + filter.length := by
    rw [← Nat.succ_mul, Nat.succ_eq_add_one, Nat.sub_add_cancel hk]
  rw [pageCount, Nat.le_div_iff_mul_le (by omega)]
  omega

theorem le_pageCount_mul (total : Nat) : total ≤ filter.pageCount total * filter.length := by
  have hlast := filter.le_pageCount total (filter.pageCount total + 1) (by omega)
  rw [Nat.add_sub_cancel] at hlast
  omega

/-- The offset of a page whose number fits. -/
theorem offset_ofNat (k : Nat) (hk : 1 ≤ k) (hfits : k < 2 ^ 63) :
    (filter.offset (Int64.ofNat k)).toInt =
      (((k - 1) * filter.length : Nat) : Int).bmod (2 ^ 64) := by
  have hone : (1 : Int64).toInt = 1 := rfl
  have hnat : (Int64.ofNat k).toInt = k := Int64.toInt_ofNat_of_lt hfits
  have hpos : 1 ≤ Int64.ofNat k := by
    rw [Int64.le_iff_toInt_le, hnat, hone]
    omega
  rw [filter.offset_toInt _ hpos, hnat, Nat.cast_mul, Nat.cast_sub hk]
  rfl

/-- An offset that fits is not changed. -/
theorem offset_small (k : Nat) (hk : 1 ≤ k) (hfits : k < 2 ^ 63)
    (hoffset : (k - 1) * filter.length < 2 ^ 63) :
    (filter.offset (Int64.ofNat k)).toInt = ((k - 1) * filter.length : Nat) := by
  rw [filter.offset_ofNat k hk hfits]
  exact Int.bmod_eq_of_le (by omega) (by omega)

theorem offset_neg_iff (p : Int64) : filter.offset p < 0 ↔ (filter.offset p).toInt < 0 := by
  rw [Int64.lt_iff_toInt_lt]
  rfl

/-- The pages of a list can all be asked for exactly if they are addressable:
    the first offset that does not fit is negative. -/
theorem addressable_iff (total : Nat) :
    filter.Addressable total ↔ ∀ k, 1 ≤ k → k ≤ filter.pageCount total → filter.Fits k := by
  have hlength := filter.length_bounds
  constructor
  · intro hall k hk hcount
    rcases hall k hk hcount with ⟨hfits, hoffset⟩
    refine ⟨hfits, ?_⟩
    rw [filter.offset_neg_iff, filter.offset_small k hk hfits hoffset]
    omega
  · intro hall k hk hcount
    have hfits := (hall k hk hcount).1
    refine ⟨hfits, ?_⟩
    by_contra hlarge
    -- The first page whose offset does not fit.
    obtain ⟨j, hj⟩ : ∃ j, j = (2 ^ 63 + filter.length - 1) / filter.length := ⟨_, rfl⟩
    have hlow : 2 ^ 63 ≤ j * filter.length := by
      have hmod := Nat.div_add_mod (2 ^ 63 + filter.length - 1) filter.length
      have hlt := Nat.mod_lt (2 ^ 63 + filter.length - 1) (show filter.length > 0 by omega)
      rw [← hj, Nat.mul_comm] at hmod
      omega
    have hhigh : j * filter.length ≤ 2 ^ 63 + filter.length - 1 := by
      rw [hj]
      exact Nat.div_mul_le_self _ _
    have hjk : j ≤ k - 1 := by
      rw [hj, Nat.div_le_iff_le_mul_add_pred (by omega), Nat.mul_comm]
      omega
    have hcount' := (filter.le_pageCount total k hk).mp hcount
    have hmono : j * filter.length ≤ (k - 1) * filter.length := Nat.mul_le_mul_right _ hjk
    have hfirst := hall (j + 1) (by omega)
      ((filter.le_pageCount total (j + 1) (by omega)).mpr (by rw [Nat.add_sub_cancel]; omega))
    have hneg := hfirst.2
    rw [filter.offset_neg_iff, filter.offset_ofNat (j + 1) (by omega) hfirst.1,
      Nat.add_sub_cancel] at hneg
    refine hneg (bmod_neg _ hlow ?_)
    omega

end FlagListFilter

section Reading

variable (h : HttpHost) (ctx : Ctx) (projSlug : String) (q : FlagListQuery)
  (filter : FlagListFilter) (proj : Project) (hfails : ∀ k, h.host.fails k = false)
  (htenant : ctx.tenant = some proj.id)
  (hquery : FlagHandler.parseQuery { q with page := "" } = .ok filter)

/-- The request for a page by its number. -/
def pageRequest (k : Nat) : HttpProg Response :=
  FlagHandler.list ctx projSlug { q with page := Nat.repr k }

include hfails htenant hquery

theorem pageRequest_fits (k : Nat) (hk : 1 ≤ k) (hfits : filter.Fits k) (s : HttpState)
    (htx : s.tx = none ∨ s.tx = some none)
    (hproj : s.world.store.projectAt projSlug = some proj) :
    Proc.run (httpExec h) (pageRequest ctx projSlug q k) s =
      (.ok ⟨200, .flags (flagPage h filter proj (h.host.order (s.world.calls + 2)) s.world.store
          (Int64.ofNat k))
        (s.world.store.flagsMatching h.host.ilike proj.id filter.search).length (Int64.ofNat k)
        filter.normalize.perPage⟩, { s with world := s.world.tick.tick.tick }) := by
  have hparam := positiveParam_repr k hk 1
  rw [if_pos hfits.1] at hparam
  rw [pageRequest, flagList_answers h ctx projSlug q filter proj hfails htenant hquery _ _ hparam s
    htx hproj, if_neg hfits.2]

/-- A page that does not fit is refused. -/
theorem readPages_unfit (k : Nat) (hk : 1 ≤ k) (hfits : ¬ filter.Fits k) (rest : List Nat)
    (s : HttpState) (htx : s.tx = none ∨ s.tx = some none)
    (hproj : s.world.store.projectAt projSlug = some proj) :
    readPages h (pageRequest ctx projSlug q) (k :: rest) s = none := by
  have hparam := positiveParam_repr k hk 1
  unfold readPages
  by_cases hsmall : k < 2 ^ 63
  · have hneg : filter.offset (Int64.ofNat k) < 0 := by
      by_contra hneg
      exact hfits ⟨hsmall, hneg⟩
    rw [if_pos hsmall] at hparam
    rw [pageRequest, flagList_answers h ctx projSlug q filter proj hfails htenant hquery _ _ hparam
      s htx hproj, if_pos hneg]
    rfl
  · rw [if_neg hsmall] at hparam
    rw [pageRequest, flagList_refuses h ctx projSlug q filter proj hfails hquery _ hparam s htx
      hproj]
    rfl

variable (s : HttpState) (htx : s.tx = none ∨ s.tx = some none)
  (hproj : s.world.store.projectAt projSlug = some proj)

include htx hproj

/-- What a client reads. -/
theorem readPages_some (n : Nat) :
    ∀ i, (∀ k, i < k → k ≤ i + n → filter.Fits k) →
      readPages h (pageRequest ctx projSlug q) (List.range' (i + 1) n) (afterRequests 3 s i) =
        some ((List.range n).map (fun j =>
          (flagPage h filter proj (h.host.order (s.world.calls + 3 * (i + j) + 2)) s.world.store
            (Int64.ofNat (i + j + 1)),
            (s.world.store.flagsMatching h.host.ilike proj.id filter.search).length))) := by
  induction n with
  | zero =>
      intro i _
      rfl
  | succ n ih =>
      intro i hfits
      -- The first page is read in the state before, the others three operations later.
      have hnext := ih (i + 1) (fun k hk hle => hfits k (by omega) (by omega))
      have hstate : afterRequests 3 s (i + 1) =
          { afterRequests 3 s i with world := (afterRequests 3 s i).world.tick.tick.tick } :=
        afterRequests_succ 3 s i
      rw [List.range'_succ, readPages, pageRequest_fits h ctx projSlug q filter proj hfails htenant
        hquery (i + 1) (by omega) (hfits (i + 1) (by omega) (by omega)) (afterRequests 3 s i) htx
        hproj]
      simp only []
      rw [← hstate, hnext, List.range_succ_eq_map, List.map_cons, List.map_map, Option.map_some]
      refine congrArg some (congrArg₂ List.cons rfl (List.map_congr_left (fun j _ => ?_)))
      simp only [Function.comp_apply]
      rw [show i + 1 + j = i + j.succ by omega]

/-- If a client is not refused, then every page fits. -/
theorem readPages_good (n : Nat) :
    ∀ i pages, readPages h (pageRequest ctx projSlug q) (List.range' (i + 1) n)
        (afterRequests 3 s i) = some pages → ∀ k, i < k → k ≤ i + n → filter.Fits k := by
  induction n with
  | zero =>
      intro i pages _ k hk hle
      omega
  | succ n ih =>
      intro i pages hread k hk hle
      rw [List.range'_succ] at hread
      by_cases hfits : filter.Fits (i + 1)
      · by_cases hfirst : k = i + 1
        · rw [hfirst]
          exact hfits
        have hstate : afterRequests 3 s (i + 1) =
            { afterRequests 3 s i with world := (afterRequests 3 s i).world.tick.tick.tick } :=
          afterRequests_succ 3 s i
        rw [readPages, pageRequest_fits h ctx projSlug q filter proj hfails htenant hquery (i + 1)
          (by omega) hfits (afterRequests 3 s i) htx hproj] at hread
        rcases Option.map_eq_some_iff.mp hread with ⟨rest, hrest, _⟩
        rw [← hstate] at hrest
        exact ih (i + 1) rest hrest k (by omega) (by omega)
      · rw [readPages_unfit h ctx projSlug q filter proj hfails htenant hquery (i + 1) (by omega)
          hfits _ (afterRequests 3 s i) htx hproj] at hread
        exact (nomatch hread)

end Reading

/-! ## Exactness -/

/-- The same surroundings, with another order of rows a query does not
    separate. -/
def HttpHost.arranging (h : HttpHost) (order : Nat → Sorter) : HttpHost :=
  { h with host := { h.host with order := order } }

section Exactness

variable (h : HttpHost) (ctx : Ctx) (projSlug : String) (q : FlagListQuery)
  (filter : FlagListFilter) (proj : Project) (s : HttpState)

/-- The flags of the list. -/
def selectedFlags : List Flag :=
  s.world.store.flagsMatching h.host.ilike proj.id filter.search

/-- The pages together are the flags of the list in order, and all of them tell
    how many there are. -/
def ReadsFlags : Prop :=
  ∃ pages, readPages h (pageRequest ctx projSlug q)
      (List.range' 1 (filter.pageCount (selectedFlags h filter proj s).length)) s = some pages ∧
    (pages.flatMap (·.1)).Perm (selectedFlags h filter proj s) ∧
    (pages.flatMap (·.1)).Pairwise (fun a b =>
      filter.normalize.less h.host.collation b a = false) ∧
    ∀ page ∈ pages, page.2 = (selectedFlags h filter proj s).length

/-- The slices of the flags, each as the query for it arranges them. -/
def flagSlices : List Flag :=
  OffsetPages.concat filter.length (filter.pageCount (selectedFlags h filter proj s).length)
    (fun j => (h.host.order (s.world.calls + 3 * j + 2)).sort
      (filter.normalize.less h.host.collation)
      (selectedFlags h filter proj s))

/-- A page whose offset fits is a slice. -/
theorem flagPage_slice (order : Sorter) (j : Nat) (hfits : j + 1 < 2 ^ 63)
    (hoffset : j * filter.length < 2 ^ 63) :
    flagPage h filter proj order s.world.store (Int64.ofNat (j + 1)) =
      OffsetPages.slice filter.length j
        (order.sort (filter.normalize.less h.host.collation) (selectedFlags h filter proj s)) := by
  have hsmall := filter.offset_small (j + 1) (by omega) hfits (by
    rw [Nat.add_sub_cancel]
    exact hoffset)
  rw [Nat.add_sub_cancel] at hsmall
  rw [flagPage, ← Int64.toNat_toInt, hsmall, Int.toNat_natCast]
  rfl

variable (hfails : ∀ k, h.host.fails k = false) (htenant : ctx.tenant = some proj.id)
  (hquery : FlagHandler.parseQuery { q with page := "" } = .ok filter)
  (htx : s.tx = none ∨ s.tx = some none)
  (hproj : s.world.store.projectAt projSlug = some proj)

include hfails htenant hquery htx hproj

/-- What a client reads are the slices, if the pages are addressable. -/
theorem readsFlags_iff
    (haddressable : filter.Addressable (selectedFlags h filter proj s).length) :
    ReadsFlags h ctx projSlug q filter proj s ↔
      (flagSlices h filter proj s).Perm (selectedFlags h filter proj s) ∧
        OffsetPages.Sorted (filter.normalize.less h.host.collation)
          (flagSlices h filter proj s) := by
  have hfits := (filter.addressable_iff _).mp haddressable
  -- All pages can be asked for, so the reader gets one answer each.
  have hread := readPages_some h ctx projSlug q filter proj hfails htenant hquery s htx hproj
    (filter.pageCount (selectedFlags h filter proj s).length) 0 (fun k hk hle =>
      hfits k hk (by omega))
  generalize hpages : (List.range (filter.pageCount (selectedFlags h filter proj s).length)).map _ =
    pages at hread
  -- Together the pages are the slices of the ordered rows.
  have hslices : pages.flatMap (·.1) = flagSlices h filter proj s := by
    rw [← hpages, List.flatMap_map, List.flatMap_def, flagSlices, OffsetPages.concat]
    refine congrArg List.flatten (List.map_congr_left (fun j hj => ?_))
    rw [List.mem_range] at hj
    have hpage := haddressable (j + 1) (by omega) hj
    rw [Nat.add_sub_cancel] at hpage
    simp only [Nat.zero_add]
    exact flagPage_slice h filter proj s _ j hpage.1 hpage.2
  have htotal : ∀ page ∈ pages, page.2 = (selectedFlags h filter proj s).length := by
    intro page hpage
    rw [← hpages] at hpage
    rcases List.mem_map.mp hpage with ⟨_, _, rfl⟩
    rfl
  constructor
  · rintro ⟨pages', hread', hperm, hsorted, _⟩
    have hsame := Option.some.inj (hread.symm.trans hread')
    rw [← hsame, hslices] at hperm hsorted
    exact ⟨hperm, hsorted⟩
  · rintro ⟨hperm, hsorted⟩
    refine ⟨pages, hread, ?_, ?_, htotal⟩
    · rw [hslices]
      exact hperm
    · rw [hslices]
      exact hsorted

/-- A client that reads all pages could address them. -/
theorem ReadsFlags.addressable (hreads : ReadsFlags h ctx projSlug q filter proj s) :
    filter.Addressable (selectedFlags h filter proj s).length := by
  rcases hreads with ⟨pages, hread, _⟩
  rw [filter.addressable_iff]
  intro k hk hle
  exact readPages_good h ctx projSlug q filter proj hfails htenant hquery s htx hproj _ 0 pages
    hread k hk (by omega)

/-- For all orders the database may return ties in. -/
theorem readsFlags_all_iff (hset : s.world.store.flags.Nodup) :
    (∀ order, ReadsFlags (h.arranging order) ctx projSlug q filter proj s) ↔
      filter.Addressable (selectedFlags h filter proj s).length ∧
        OffsetPages.Strict (filter.normalize.less h.host.collation) filter.length
          (Sorter.insertion.sort (filter.normalize.less h.host.collation)
            (selectedFlags h filter proj s)) := by
  have hexact := OffsetPages.exact_iff (filter.normalize.less h.host.collation)
    (filter.normalize.strictWeak_less h.host.collation)
    filter.length filter.length_bounds.1 (selectedFlags h filter proj s) (hset.filter _)
    (filter.pageCount (selectedFlags h filter proj s).length) (filter.le_pageCount_mul _)
  have hone := fun order haddressable => readsFlags_iff (h.arranging order) ctx projSlug q filter
    proj s hfails htenant hquery htx hproj haddressable
  constructor
  · intro hall
    have haddressable := ReadsFlags.addressable (h.arranging h.host.order) ctx projSlug q filter
      proj s hfails htenant hquery htx hproj (hall _)
    refine ⟨haddressable, hexact.mp (fun order => ?_)⟩
    -- Every choice of orders for the pages is one for the operations.
    have hslices := (hone (fun n => order ((n - s.world.calls - 2) / 3)) haddressable).mp (hall _)
    have hindex : ∀ j, (s.world.calls + 3 * j + 2 - s.world.calls - 2) / 3 = j := by omega
    simp only [flagSlices, HttpHost.arranging, hindex] at hslices
    exact hslices
  · rintro ⟨haddressable, hstrict⟩ order
    exact (hone order haddressable).mpr (hexact.mpr hstrict _)

/-- A request for a page that is read off a parameter finds nothing, and no
    error, exactly if the offset it comes down to lies behind the list. -/
theorem flagList_empty_iff (raw : String) (p : Int64) (hp : positiveParam raw 1 = some p) :
    (∃ total page perPage s',
        Proc.run (httpExec h) (FlagHandler.list ctx projSlug { q with page := raw }) s =
          (.ok ⟨200, .flags [] total page perPage⟩, s')) ↔
      ((selectedFlags h filter proj s).length : Int) ≤
        ((p.toInt - 1) * filter.length).bmod (2 ^ 64) := by
  have hpos := positiveParam_pos raw 1 p (by decide) hp
  have hanswer := flagList_answers h ctx projSlug q filter proj hfails htenant hquery raw p hp s
    htx hproj
  have hlength := filter.length_bounds.1
  rw [← filter.offset_toInt p hpos, hanswer]
  by_cases hneg : filter.offset p < 0
  · -- A negative offset is an error, and below every number of rows.
    rw [if_pos hneg]
    rw [filter.offset_neg_iff] at hneg
    constructor
    · rintro ⟨total, page, perPage, s', hrun⟩
      have hbody := congrArg Response.body (Except.ok.inj (Prod.mk.inj hrun).1)
      exact (nomatch hbody)
    · intro hle
      omega
  · rw [if_neg hneg]
    rw [filter.offset_neg_iff] at hneg
    -- A page is empty if and only if its offset is past the rows.
    have hrows : flagPage h filter proj (h.host.order (s.world.calls + 2)) s.world.store p = [] ↔
        ((selectedFlags h filter proj s).length : Int) ≤ (filter.offset p).toInt := by
      have hsort := ((h.host.order (s.world.calls + 2)).perm
        (filter.normalize.less h.host.collation) (selectedFlags h filter proj s)).length_eq
      unfold flagPage
      rw [List.take_eq_nil_iff, List.drop_eq_nil_iff, ← Int64.toNat_toInt]
      unfold selectedFlags at hsort ⊢
      rw [hsort]
      omega
    rw [← hrows]
    constructor
    · rintro ⟨total, page, perPage, s', hrun⟩
      have hbody := congrArg Response.body (Except.ok.inj (Prod.mk.inj hrun).1)
      simp only [Body.flags.injEq] at hbody
      exact hbody.1
    · intro hnil
      rw [hnil]
      exact ⟨_, _, _, _, rfl⟩

/-- The pages together are the list, for every order the database may return
    ties in, exactly if they are addressable and no two flags tie across the end
    of a page. A page beyond them is empty exactly if its offset, which wraps
    around, does not lie before the end of the list. -/
theorem flag_pages_exact_iff (hset : s.world.store.flags.Nodup) :
    ((∀ order, ReadsFlags (h.arranging order) ctx projSlug q filter proj s) ↔
      filter.Addressable (selectedFlags h filter proj s).length ∧
        OffsetPages.Strict (filter.normalize.less h.host.collation) filter.length
          (Sorter.insertion.sort (filter.normalize.less h.host.collation)
            (selectedFlags h filter proj s))) ∧
    ∀ raw p, positiveParam raw 1 = some p →
      (filter.pageCount (selectedFlags h filter proj s).length : Int) < p.toInt →
      ((∃ total page perPage s',
          Proc.run (httpExec h) (FlagHandler.list ctx projSlug { q with page := raw }) s =
            (.ok ⟨200, .flags [] total page perPage⟩, s')) ↔
        ((selectedFlags h filter proj s).length : Int) ≤
          ((p.toInt - 1) * filter.length).bmod (2 ^ 64)) := by
  constructor
  · exact readsFlags_all_iff h ctx projSlug q filter proj s hfails htenant hquery htx hproj hset
  · intro raw p hp _
    exact flagList_empty_iff h ctx projSlug q filter proj s hfails htenant hquery htx hproj raw p hp

end Exactness

/-- A project with three flags, created at the given times. -/
def threeFlags (first second third : Time) : HttpState where
  world :=
    { store :=
        { projects := [⟨"p1", "Shop", "shop", 0⟩]
          flags := [
            ⟨"f1", "p1", "a", "A", .bool, [⟨"true", "On"⟩, ⟨"false", "Off"⟩], "false", first⟩,
            ⟨"f2", "p1", "b", "B", .bool, [⟨"true", "On"⟩, ⟨"false", "Off"⟩], "false", second⟩,
            ⟨"f3", "p1", "c", "C", .bool, [⟨"true", "On"⟩, ⟨"false", "Off"⟩], "false", third⟩] } }
  tx := some none
  windows := fun _ => none

/-- A viewer of the project. -/
def shopReader : Ctx := ⟨some ⟨"u1", .viewer⟩, some "p1"⟩

/-- Two flags a page are what the query asks for. -/
theorem parseQuery_twos :
    FlagHandler.parseQuery { perPage := "2" } = .ok ⟨1, 2, "", "", ""⟩ := by
  have htwo : positiveParam "2" 50 = some 2 := by decide +kernel
  unfold FlagHandler.parseQuery
  simp only [htwo]
  rfl

/-- The flags of `threeFlags` are two by two on a page. -/
theorem threeFlags_pages :
    FlagListFilter.length ⟨1, 2, "", "", ""⟩ = 2 ∧
      FlagListFilter.pageCount ⟨1, 2, "", "", ""⟩ 3 = 2 := by
  decide +kernel

/-- Three flags of different times are read on two pages, and the third page is
    empty. -/
theorem flag_pages_exact_three :
    (∀ order, ReadsFlags (readerHost.arranging order) shopReader "shop" { perPage := "2" }
      ⟨1, 2, "", "", ""⟩ ⟨"p1", "Shop", "shop", 0⟩ (threeFlags 1 2 3)) ∧
    ∃ total page perPage s',
      Proc.run (httpExec readerHost)
        (FlagHandler.list shopReader "shop" { page := "3", perPage := "2" }) (threeFlags 1 2 3) =
          (.ok ⟨200, .flags [] total page perPage⟩, s') := by
  have hexact := flag_pages_exact_iff readerHost shopReader "shop" { perPage := "2" }
    ⟨1, 2, "", "", ""⟩ ⟨"p1", "Shop", "shop", 0⟩ (threeFlags 1 2 3) (fun _ => rfl) rfl
    parseQuery_twos (.inr rfl) rfl (by decide +kernel)
  refine ⟨hexact.1.mpr ⟨?_, ?_⟩, (hexact.2 "3" 3 (by decide +kernel) (by decide +kernel)).mpr
    (by decide +kernel)⟩
  · intro k hk hle
    have hcount : k ≤ FlagListFilter.pageCount ⟨1, 2, "", "", ""⟩ 3 := hle
    rw [threeFlags_pages.2] at hcount
    rw [threeFlags_pages.1]
    omega
  · intro k hk a b ha hb
    rw [threeFlags_pages.1] at ha hb
    have hlt := (List.getElem?_eq_some_iff.mp hb).1
    have hlength : (Sorter.insertion.sort
      ((FlagListFilter.normalize ⟨1, 2, "", "", ""⟩).less readerHost.host.collation)
      (selectedFlags readerHost ⟨1, 2, "", "", ""⟩ ⟨"p1", "Shop", "shop", 0⟩
        (threeFlags 1 2 3))).length = 3 := by decide +kernel
    have hone : k = 1 := by omega
    rw [hone] at ha hb
    rw [← Option.some.inj ha, ← Option.some.inj hb]
    decide +kernel

/-- Three flags of one time may be read wrongly two at a time, and a page far
    beyond them is an error. -/
theorem flag_pages_repeat_tie :
    ¬ (∀ order, ReadsFlags (readerHost.arranging order) shopReader "shop" { perPage := "2" }
      ⟨1, 2, "", "", ""⟩ ⟨"p1", "Shop", "shop", 0⟩ (threeFlags 1 1 1)) ∧
    ¬ ∃ total page perPage s',
      Proc.run (httpExec readerHost) (FlagHandler.list shopReader "shop"
        { page := "4611686018427387905", perPage := "2" }) (threeFlags 1 1 1) =
          (.ok ⟨200, .flags [] total page perPage⟩, s') := by
  constructor
  · rw [readsFlags_all_iff readerHost shopReader "shop" { perPage := "2" } ⟨1, 2, "", "", ""⟩
      ⟨"p1", "Shop", "shop", 0⟩ (threeFlags 1 1 1) (fun _ => rfl) rfl parseQuery_twos (.inr rfl) rfl
      (by decide +kernel)]
    rintro ⟨_, hstrict⟩
    have hless := hstrict 1 (Nat.le_refl 1) _ _ rfl rfl
    exact absurd hless (by decide +kernel)
  · rw [flagList_empty_iff readerHost shopReader "shop" { perPage := "2" } ⟨1, 2, "", "", ""⟩
      ⟨"p1", "Shop", "shop", 0⟩ (threeFlags 1 1 1) (fun _ => rfl) rfl parseQuery_twos (.inr rfl) rfl
      "4611686018427387905" 4611686018427387905 (by decide +kernel)]
    decide +kernel

end Cuttlegate
