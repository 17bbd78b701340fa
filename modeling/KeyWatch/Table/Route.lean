/-!
# Routing of keys

The table is cut into buckets and a key belongs to one by its first character: a letter, whatever
its case, by its place in the alphabet, and a digit behind the letters. A key that starts otherwise,
and the empty key, have no bucket.
-/

namespace KeyWatch

/-- The number of buckets: one for each letter and each digit. -/
def bucketCount : Nat := 36

/-- The number of a bucket, below `bucketCount`. -/
abbrev BucketIndex := Fin bucketCount

/-- The bucket of the keys that start with a character: letters by their place in the alphabet,
whatever their case, and digits behind them. -/
def routeChar (c : Char) : Option BucketIndex :=
  if h : 'a'.toNat ≤ c.toNat ∧ c.toNat ≤ 'z'.toNat then
    some ⟨c.toNat - 'a'.toNat, by
      have : c.toNat ≤ 122 := h.2
      have : 'a'.toNat = 97 := rfl
      simp only [bucketCount]
      omega⟩
  else if h : 'A'.toNat ≤ c.toNat ∧ c.toNat ≤ 'Z'.toNat then
    some ⟨c.toNat - 'A'.toNat, by
      have : c.toNat ≤ 90 := h.2
      have : 'A'.toNat = 65 := rfl
      simp only [bucketCount]
      omega⟩
  else if h : '0'.toNat ≤ c.toNat ∧ c.toNat ≤ '9'.toNat then
    some ⟨26 + (c.toNat - '0'.toNat), by
      have : c.toNat ≤ 57 := h.2
      have : '0'.toNat = 48 := rfl
      simp only [bucketCount]
      omega⟩
  else none

/-- The bucket of a key, by its first character (`routeChar`), or `none` for a key that starts
otherwise. Operation: `bucket_index`. -/
def route (key : String) : Option BucketIndex := key.toList.head?.bind routeChar

end KeyWatch
