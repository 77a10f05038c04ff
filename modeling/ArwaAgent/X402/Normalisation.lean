import ArwaAgent.X402.Agreement

/-!
# Account hashes and assets in one form

Account hashes come with the prefix of a key, with the tag of the wire format, or bare, and
the zeros in front of the hash itself look like the tag.  What is stripped too much is a zero,
which padding puts back; so each side finds the 64 digits, and both agree on the payee and on
the asset.
-/

namespace ArwaAgent.X402

open Js

/-- `payToV2`, of the `payTo` in the requirements. -/
def payToV2 (payTo : String) : String :=
  "00" ++ last64 (removeStart "00" (removeStart "account-hash-" payTo))

/-- `assetBytes32`, of the `asset` in the requirements. -/
def assetBytes32 (asset : String) : String :=
  last64 (removeStart "hash-" asset)

/-- The ways in which an account hash is given. -/
def accountHashSpellings (h : String) : List String :=
  [h, "00" ++ h, "account-hash-" ++ h]

/-- The ways in which an asset is given. -/
def assetSpellings (asset : String) : List String :=
  [asset, "hash-" ++ asset]

section

variable {h s t asset : String} {k n : ℕ}

/-! ### Zeros in front -/

lemma last64_of_zeros_append (hh : IsHex 64 h) (hzeros : h.toList = List.replicate k '0' ++ s.toList) :
    last64 s = h := by
  have hs : ∀ c ∈ s.toList, c.toNat < 0x10000 := fun c hc =>
    hh.toNat_lt c (hzeros ▸ List.mem_append_right _ hc)
  have hlength : k + s.toList.length = 64 := by
    rw [← hh.length, hzeros, List.length_append, List.length_replicate]
  have hpad : padStart 64 '0' s = h := by
    rw [padStart, length16_eq_length hs, show 64 - s.toList.length = k by omega, ← hzeros,
      String.ofList_toList]
  have hself : padStart 64 '0' h = h := padStart_eq_self hh.length16.ge
  calc last64 s = sliceLast 64 (padStart 64 '0' h) := by rw [last64, hpad, hself]
    _ = h := hh.last64

lemma last64_removeZeros (hh : IsHex 64 h) : last64 (removeZeros h) = h := by
  have hzeros : h.toList.takeWhile (· = '0') =
      List.replicate (h.toList.takeWhile (· = '0')).length '0' :=
    List.eq_replicate_of_mem fun c hc => by simpa using List.mem_takeWhile_imp hc
  refine last64_of_zeros_append (k := (h.toList.takeWhile (· = '0')).length) hh ?_
  rw [removeZeros, String.toList_ofList, ← hzeros, List.takeWhile_append_dropWhile]

lemma last64_removeTag (hh : IsHex 64 h) : last64 (removeStart "00" h) = h := by
  rw [removeStart]
  split
  next hpre =>
    refine last64_of_zeros_append (k := 2) hh ?_
    obtain ⟨rest, hrest⟩ := List.isPrefixOf_iff_prefix.1 hpre
    rw [String.toList_ofList, ← hrest, List.drop_left]
    rfl
  next => exact hh.last64

/-! ### Account hashes -/

/-- However a hash is given, without the prefix and the tag it is the hash. -/
lemma last64_of_spelling (hh : IsHex 64 h) (hs : s ∈ accountHashSpellings h) :
    last64 (removeStart "00" (removeStart "account-hash-" s)) = h := by
  have htag : IsHex (2 + 64) ("00" ++ h) := IsHex.append (by decide) hh
  simp only [accountHashSpellings, List.mem_cons, List.not_mem_nil, or_false] at hs
  rcases hs with rfl | rfl | rfl
  · rw [hh.removeStart (by decide), last64_removeTag hh]
  · rw [htag.removeStart (by decide), removeStart_append, hh.last64]
  · rw [removeStart_append, last64_removeTag hh]

/-- The server normalises its payee in the same way, except for the tag. -/
lemma payeeHex_of_spelling (hh : IsHex 64 h) {address : Option String}
    (hs : address.getD "" ∈ accountHashSpellings h) : payeeHex address = h := by
  have htag : IsHex (2 + 64) ("00" ++ h) := IsHex.append (by decide) hh
  rw [payeeHex]
  generalize address.getD "" = s at hs
  simp only [accountHashSpellings, List.mem_cons, List.not_mem_nil, or_false] at hs
  rcases hs with rfl | rfl | rfl
  · rw [hh.removeStart (by decide), hh.last64]
  · rw [htag.removeStart (by decide), hh.last64_append]
  · rw [removeStart_append, hh.last64]

lemma accountHashWithPrefix_of_isHex (hh : IsHex 64 h) :
    accountHashWithPrefix h = "00" ++ h ∧ accountHashWithPrefix ("00" ++ h) = "00" ++ h := by
  have htag : removeZeros ("00" ++ h) = removeZeros h := by
    rw [removeZeros, removeZeros, String.toList_append]
    rfl
  rw [accountHashWithPrefix, accountHashWithPrefix, htag, last64_removeZeros hh]
  exact ⟨rfl, rfl⟩

/-! ### Assets -/

lemma isHex_defaultWcsprTestnet : IsHex 64 defaultWcsprTestnet := by
  decide

lemma assetBytes32_of_spelling (ha : IsHex n asset) (hs : s ∈ assetSpellings asset) :
    assetBytes32 s = last64 asset := by
  simp only [assetSpellings, List.mem_cons, List.not_mem_nil, or_false] at hs
  rcases hs with rfl | rfl
  · rw [assetBytes32, ha.removeStart (by decide)]
  · rw [assetBytes32, removeStart_append]

lemma asset_of_spelling (ha : IsHex n asset) {env : ServerEnv}
    (hs : env.x402Cep18PackageHash.getD "" ∈ assetSpellings asset) :
    env.config.asset = if asset = "" then defaultWcsprTestnet else asset := by
  have hbare : removeText "hash-" (env.x402Cep18PackageHash.getD "") = asset := by
    simp only [assetSpellings, List.mem_cons, List.not_mem_nil, or_false] at hs
    rcases hs with hs | hs
    · rw [hs, ha.removeText (by decide)]
    · rw [hs, removeText_append (by decide)]
  rw [← hbare]
  rfl

/-! ### The client and the server -/

/-- The client normalises the payee and the asset of the header. -/
lemma target_toJson_eq (c : ClientCrypto) (r : PaymentRequirements) :
    target c r.toJson =
      (c.buildDomain r.extra.name r.extra.version (removeStart "casper:" r.network)
        (assetBytes32 r.asset)).map fun domain =>
          ⟨payToV2 r.payTo, assetBytes32 r.asset, domain⟩ := by
  rw [← c.buildDomainOf_str]
  rfl

/-- The client takes from the header the payee and the asset that the server itself has. -/
structure SameTarget (c : ClientCrypto) (r : PaymentRequirements) : Prop where
  payTo : payToV2 r.payTo = r.payTo
  asset : assetBytes32 r.asset = last64 r.asset
  digits : IsHex 64 (last64 r.asset)
  built : target c r.toJson =
    (c.buildDomain r.extra.name r.extra.version (removeStart "casper:" r.network)
      (last64 r.asset)).map fun domain => ⟨r.payTo, last64 r.asset, domain⟩

/-- Every spelling of an account hash is read as the hash and written with the tag; the client
finds the payee and the asset that the server has, whichever spellings either is given. -/
theorem normalisation_exact {env : ServerEnv} (hh : IsHex 64 h) (ha : IsHex n asset)
    (hpayee : env.x402PayeeAddress.getD "" ∈ accountHashSpellings h)
    (hasset : env.x402Cep18PackageHash.getD "" ∈ assetSpellings asset) (info : AssetMeta)
    (c : ClientCrypto) :
    (∀ s ∈ accountHashSpellings h, parseAccountHash (.str s) = .ok h) ∧
      accountHashWithPrefix h = "00" ++ h ∧ accountHashWithPrefix ("00" ++ h) = "00" ++ h ∧
      (requirementsOf env.config info).payTo = "00" ++ h ∧
      SameTarget c (requirementsOf env.config info) ∧
      (asset ≠ "" → ∀ s ∈ assetSpellings asset,
        assetBytes32 s = last64 (requirementsOf env.config info).asset) := by
  have hpayTo : (requirementsOf env.config info).payTo = "00" ++ h := by
    show accountHashWithPrefix (payeeHex env.x402PayeeAddress) = _
    rw [payeeHex_of_spelling hh hpayee, (accountHashWithPrefix_of_isHex hh).1]
  have hback : payToV2 ("00" ++ h) = "00" ++ h := by
    rw [payToV2, last64_of_spelling hh (by simp [accountHashSpellings])]
  have hown : (requirementsOf env.config info).asset =
      if asset = "" then defaultWcsprTestnet else asset := asset_of_spelling ha hasset
  obtain ⟨m, hdigits⟩ : ∃ m, IsHex m (requirementsOf env.config info).asset := by
    rw [hown]
    split
    · exact ⟨64, isHex_defaultWcsprTestnet⟩
    · exact ⟨n, ha⟩
  have hagree : assetBytes32 (requirementsOf env.config info).asset =
      last64 (requirementsOf env.config info).asset :=
    assetBytes32_of_spelling hdigits (by simp [assetSpellings])
  refine ⟨fun s hs => ?_, (accountHashWithPrefix_of_isHex hh).1,
    (accountHashWithPrefix_of_isHex hh).2, hpayTo, ⟨?_, hagree, hdigits.isHex_last64, ?_⟩, ?_⟩
  · show Except.ok _ = _
    rw [last64_of_spelling hh hs]
  · rw [hpayTo, hback]
  · rw [target_toJson_eq, hagree, hpayTo, hback]
  · intro hne s hs
    rw [hown, if_neg hne, assetBytes32_of_spelling ha hs]

end

/-! ### A hash that begins with zeros -/

/-- An account hash whose first digits look like the tag. -/
def zerosHash : String :=
  "00007931947ee0281e50806b94f8d4993e8869b0689dfa0a21d2946ab677183c"

/-- A server with the payee and the asset prefixed. -/
def prefixedEnv : ServerEnv :=
  ⟨none, some ("hash-" ++ defaultWcsprTestnet), none, some ("account-hash-" ++ zerosHash), none⟩

theorem normalisation_exact_zeros :
    (∀ s ∈ accountHashSpellings zerosHash, parseAccountHash (.str s) = .ok zerosHash) ∧
      accountHashWithPrefix zerosHash = "00" ++ zerosHash ∧
      accountHashWithPrefix ("00" ++ zerosHash) = "00" ++ zerosHash ∧
      (requirementsOf prefixedEnv.config wcspr).payTo = "00" ++ zerosHash ∧
      SameTarget pointCrypto (requirementsOf prefixedEnv.config wcspr) ∧
      (defaultWcsprTestnet ≠ "" → ∀ s ∈ assetSpellings defaultWcsprTestnet,
        assetBytes32 s = last64 (requirementsOf prefixedEnv.config wcspr).asset) :=
  normalisation_exact (by decide) isHex_defaultWcsprTestnet
    (by simp [prefixedEnv, accountHashSpellings]) (by simp [prefixedEnv, assetSpellings]) wcspr
    pointCrypto

end ArwaAgent.X402
