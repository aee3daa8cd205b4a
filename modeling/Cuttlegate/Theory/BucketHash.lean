import Cuttlegate.Domain.Evaluator
import Cuttlegate.Lib.Hashing

/-!
# The Hash Behind a Bucket

The bucket of a user for a flag comes from a hash of the two keys, which is
fed with three writes: the key of the flag, a zero byte, and the key of the
user.

The hash works on words of 32 bits, and follows FNV-1a on natural numbers. The
writes amount to the hash of one text, the keys with the zero byte between
them. A key that passes the check of a flag has no zero byte, so the text tells
the keys; the key of the user can be any bytes at all, for which the bucket is
stated on bytes rather than on strings.

## Main definitions

* `utf8`: The bytes of a string.
* `bucketWrites`, `bucketText`: What the hash is fed with.
* `bucketBytes`: The bucket of keys that are any bytes.
* `fnv32`: The hash, on natural numbers.

## Theorems

* `utf8_slug`: The bytes of a key that follows the grammar.
* `bucketText_iff`: The text tells the keys.
* `bucketBytes_eq`: The bucket is the hash of the text, modulo 100.
* `bucket_unambiguous`: Both, for the bucket the evaluation uses.
-/

namespace Cuttlegate

/-- The bytes of a string. -/
def utf8 (s : String) : List UInt8 := s.toUTF8.data.toList

section Keys

variable (flagKey userKey : List UInt8)

/-- The writes to the hash, in order. -/
def bucketWrites : List (List UInt8) := [flagKey, [0], userKey]

/-- The bytes the hash is fed with. -/
def bucketText : List UInt8 := (bucketWrites flagKey userKey).flatten

/-- The bucket of keys that need not be texts. -/
def bucketBytes : Int64 :=
  Int64.ofNat ((bucketWrites flagKey userKey).foldl fnv1a 2166136261 % 100).toNat

theorem bucket_eq (flagKey userKey : String) :
    bucket flagKey userKey = bucketBytes (utf8 flagKey) (utf8 userKey) := rfl

theorem bucketText_eq : bucketText flagKey userKey = flagKey ++ 0 :: userKey := by
  rw [bucketText, bucketWrites, List.flatten_cons, List.flatten_cons, List.flatten_cons,
    List.flatten_nil, List.append_nil, List.singleton_append]

end Keys

/-! ## The text -/

/-- The bytes of a text of ASCII characters are its characters. -/
theorem utf8_ascii (s : String) (h : ∀ c ∈ s.toList, c.utf8Size = 1) :
    utf8 s = s.toList.map (fun c => c.val.toUInt8) := by
  rw [utf8, String.toUTF8_eq_toByteArray, ← String.utf8Encode_toList, List.utf8Encode,
    List.data_toByteArray]
  generalize s.toList = text at h
  induction text with
  | nil => rfl
  | cons c text ih =>
      have hrest := ih (fun d hd => h d (List.mem_cons_of_mem c hd))
      rw [List.flatMap_cons, String.utf8EncodeChar_eq_singleton (h c List.mem_cons_self),
        List.singleton_append, List.map_cons]
      exact congrArg (c.val.toUInt8 :: ·) hrest

theorem utf8_inj (s t : String) : utf8 s = utf8 t ↔ s = t := by
  constructor
  · intro h
    have hdata : s.toUTF8.data = t.toUTF8.data := Array.toList_inj.mp h
    exact String.toByteArray_inj.mp (ByteArray.ext hdata)
  · rintro rfl
    rfl

/-- The characters of the grammar. -/
theorem slugRe_chars (s : String) (h : slugRe s = true) :
    ∀ c ∈ s.toList, slugStart c = true ∨ c = '-' := by
  unfold slugRe at h
  cases htext : s.toList with
  | nil => exact fun c hc => absurd hc List.not_mem_nil
  | cons first rest =>
      rw [htext] at h
      simp only [Bool.and_eq_true, List.all_eq_true, Bool.or_eq_true, beq_iff_eq] at h
      intro c hc
      rcases List.mem_cons.mp hc with rfl | hc
      · exact .inl h.1
      · exact h.2 c hc

/-- They are printable ASCII characters. -/
theorem slug_char_range (c : Char) (h : slugStart c = true ∨ c = '-') :
    45 ≤ c.toNat ∧ c.toNat ≤ 122 := by
  rcases h with h | rfl
  · simp only [slugStart, Bool.or_eq_true, Bool.and_eq_true, decide_eq_true_eq, Char.le_def,
      UInt32.le_iff_toNat_le] at h
    have hbounds : ('a'.val.toNat ≤ c.toNat ∧ c.toNat ≤ 'z'.val.toNat) ∨
        ('0'.val.toNat ≤ c.toNat ∧ c.toNat ≤ '9'.val.toNat) := h
    rcases hbounds with ⟨hlow, hhigh⟩ | ⟨hlow, hhigh⟩
    · exact ⟨le_trans (by decide) hlow, le_trans hhigh (by decide)⟩
    · exact ⟨le_trans (by decide) hlow, le_trans hhigh (by decide)⟩
  · decide

/-- A key that follows the grammar has no zero byte. -/
theorem utf8_slug (s : String) (h : slugRe s = true) : 0 ∉ utf8 s := by
  have hrange : ∀ c ∈ s.toList, 45 ≤ c.toNat ∧ c.toNat ≤ 122 :=
    fun c hc => slug_char_range c (slugRe_chars s h c hc)
  have hsize : ∀ c ∈ s.toList, c.utf8Size = 1 := by
    intro c hc
    rw [Char.utf8Size_eq_one_iff, UInt32.le_iff_toNat_le]
    exact le_trans (hrange c hc).2 (by decide)
  rw [utf8_ascii s hsize, List.mem_map]
  rintro ⟨c, hc, hzero⟩
  have hbyte := congrArg UInt8.toNat hzero
  rw [UInt32.toNat_toUInt8] at hbyte
  have hbounds := hrange c hc
  have hmod : c.val.toNat % 256 = c.val.toNat :=
    Nat.mod_eq_of_lt (lt_of_le_of_lt hbounds.2 (by decide))
  rw [hmod] at hbyte
  exact absurd (hbounds.1.trans_eq hbyte) (by decide)

/-- The text tells the keys, whatever the key of the user is. -/
theorem bucketText_iff (flagKey flagKey' : String) (h : slugRe flagKey = true)
    (h' : slugRe flagKey' = true) (userKey userKey' : List UInt8) :
    bucketText (utf8 flagKey) userKey = bucketText (utf8 flagKey') userKey' ↔
      flagKey = flagKey' ∧ userKey = userKey' := by
  rw [bucketText_eq, bucketText_eq,
    append_separator_iff 0 _ _ _ _ (utf8_slug flagKey h) (utf8_slug flagKey' h'), utf8_inj]

/-- Without the grammar it would not: a zero byte in the key of a flag can be
    taken for the one that ends it. -/
theorem bucketText_shift (a b userKey : List UInt8) :
    bucketText (a ++ 0 :: b) userKey = bucketText a (b ++ 0 :: userKey) := by
  rw [bucketText_eq, bucketText_eq]
  exact append_separator_shift 0 a b userKey

/-! ## The hash -/

/-- The 32-bit hash, with its offset and its prime. -/
def fnv32 : Hasher Nat UInt8 := Hasher.fnv1a 32 2166136261 16777619

/-- The hash on words. -/
def fnvWord : Hasher UInt32 UInt8 := ⟨2166136261, fun s b => (s ^^^ b.toUInt32) * 16777619⟩

theorem fnv1a_write : fnv1a = fnvWord.write := rfl

/-- The words follow the natural numbers. -/
theorem fnvWord_step (s : UInt32) (b : UInt8) :
    (fnvWord.step s b).toNat = fnv32.step s.toNat b := by
  simp only [fnvWord, fnv32, Hasher.fnv1a, UInt32.toNat_mul, UInt32.toNat_xor,
    UInt8.toNat_toUInt32]
  rfl

/-- The three writes amount to the hash of the text. -/
theorem writes_hash (flagKey userKey : List UInt8) :
    ((bucketWrites flagKey userKey).foldl fnv1a 2166136261).toNat =
      fnv32.hash (bucketText flagKey userKey) := by
  rw [fnv1a_write, Hasher.write_pieces,
    Hasher.write_simulates fnvWord fnv32 UInt32.toNat fnvWord_step]
  rfl

/-- The bucket is the hash of the text, modulo 100. -/
theorem bucketBytes_eq (flagKey userKey : List UInt8) :
    (bucketBytes flagKey userKey).toInt =
      ((fnv32.hash (flagKey ++ 0 :: userKey) % 100 : Nat) : Int) := by
  have hlt : fnv32.hash (flagKey ++ 0 :: userKey) % 100 < 2 ^ 63 :=
    lt_trans (Nat.mod_lt _ (by decide)) (by decide)
  rw [bucketBytes, UInt32.toNat_mod, writes_hash, bucketText_eq]
  exact Int64.toInt_ofNat_of_lt hlt

-- The value that the tests of the source pin down.
example : bucket "my-flag" "user-123" = 82 := by decide

/-- The text of two keys tells them, and the bucket is its hash modulo 100: the
    three writes come to one, and the result is from 0 to 99. -/
theorem bucket_unambiguous (flagKey flagKey' : String) (h : slugRe flagKey = true)
    (h' : slugRe flagKey' = true) (userKey userKey' : List UInt8) :
    (bucketText (utf8 flagKey) userKey = bucketText (utf8 flagKey') userKey' ↔
      flagKey = flagKey' ∧ userKey = userKey') ∧
    ((bucketBytes (utf8 flagKey) userKey).toInt =
        ((fnv32.hash (utf8 flagKey ++ 0 :: userKey) % 100 : Nat) : Int) ∧
      0 ≤ (bucketBytes (utf8 flagKey) userKey).toInt ∧
      (bucketBytes (utf8 flagKey) userKey).toInt ≤ 99) ∧
    ∀ user, userKey = utf8 user → bucket flagKey user = bucketBytes (utf8 flagKey) userKey := by
  refine ⟨bucketText_iff flagKey flagKey' h h' userKey userKey',
    ⟨bucketBytes_eq (utf8 flagKey) userKey, ?_⟩, ?_⟩
  · rw [bucketBytes_eq]
    omega
  · rintro user rfl
    exact bucket_eq flagKey user

/-- The keys that would be the same if nothing came between them. -/
theorem bucket_unambiguous_split :
    bucketText (utf8 "ab") (utf8 "c") ≠ bucketText (utf8 "a") (utf8 "bc") := by
  intro h
  have hkeys := (bucket_unambiguous "ab" "a" (by decide) (by decide) (utf8 "c") (utf8 "bc")).1.mp h
  exact absurd hkeys.1 (by decide)

end Cuttlegate
