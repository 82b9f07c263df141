import OpenMemory.Engine.Routing
import OpenMemory.Foundation.HashBytes

/-!
# The routing hash and the lower case it stands for

The hash of the characters in lower case is the hash of the name in lower case,
unless a capital sigma ends a word of the name. Two names with one lower case fall
into one domain and one shard under every count exactly where their final sigmas
come from capitals in the same places. Shards and domains agree for every name.
-/

namespace OpenMemory.Engine.Partition

open Foundation

section Routing

variable [CaseProperties] [NameHash]

/-- The bytes that a name in lower case writes to a hasher. -/
def lowercaseBytes (key : String) : Bytes := utf8 (toLowercase key) ++ [0xFF]

omit [CaseProperties] [NameHash] in
theorem hashed_eq_iff {left right : String} :
    utf8 left ++ [0xFF] = utf8 right ++ [0xFF] ↔ left = right := by
  rw [List.append_left_inj]
  exact utf8_injective.eq_iff

omit [CaseProperties] [NameHash] in
theorem ofList_eq_iff {left right : List Char} :
    String.ofList left = String.ofList right ↔ left = right :=
  ⟨fun same => String.ofList_injective same, fun same => congrArg _ same⟩

omit [CaseProperties] in
/-- Two names that every count sends to one domain have one hash. -/
theorem hash_eq_of_domains {key other : String}
    (same : ∀ count, 0 < count → domainFor key count = domainFor other count) :
    hashLowercaseKey key = hashLowercaseKey other := by
  have whole := same (2 ^ 64) (by decide)
  rw [domainFor, domainFor, max_eq_left (by decide), Nat.mod_eq_of_lt (UInt64.toNat_lt _),
    Nat.mod_eq_of_lt (UInt64.toNat_lt _)] at whole
  exact UInt64.toNat_inj.mp whole

/-- The hash of a name without a final capital sigma is that of its lower case. -/
theorem hash_eq_lowercaseHash [LawfulNameHash] {key : String} (ordinary : ¬ HasFinalSigma key) :
    hashLowercaseKey key = lowercaseHash key := by
  have lower : charwiseFrom key.toList = lowercaseFrom [] key.toList :=
    charwise_eq_lowercase_iff.mpr ordinary
  rw [charwiseFrom] at lower
  rw [hashLowercaseKey, lowercaseKeyBytes, lower]
  rfl

/-- Names with one lower case and the same final sigmas have one hash. -/
theorem hash_eq_of_finalSigmas [LawfulNameHash] {key other : String}
    (same : toLowercase key = toLowercase other) (finals : finalSigmas key = finalSigmas other) :
    hashLowercaseKey key = hashLowercaseKey other := by
  have lower : charwiseFrom key.toList = charwiseFrom other.toList :=
    (charwise_eq_iff_finals same).mpr finals
  rw [charwiseFrom, charwiseFrom] at lower
  rw [hashLowercaseKey, hashLowercaseKey, lowercaseKeyBytes, lowercaseKeyBytes, lower]

/-- The routing hash of a name is the hash of its lower case where no capital sigma
ends a word; names with one lower case are routed alike where their final sigmas
agree; and shards follow domains. Where the hash tells the texts apart that are fed to
it, nothing else is routed alike. -/
theorem routing_follows_lowercase [LawfulNameHash] (key other : String) :
    (¬ HasFinalSigma key → hashLowercaseKey key = lowercaseHash key) ∧
      (toLowercase key = toLowercase other → finalSigmas key = finalSigmas other →
        ∀ count, domainFor key count = domainFor other count ∧
          shardFor key count = shardFor other count) ∧
      (∀ shards domains, 0 < domains → domains ∣ shards →
        domainOfShard (shardFor key shards) domains = domainFor key domains) ∧
      (Set.InjOn NameHash.finish
          {lowercaseKeyBytes key, lowercaseKeyBytes other, lowercaseBytes key} →
        (hashLowercaseKey key = lowercaseHash key ↔ ¬ HasFinalSigma key) ∧
          (toLowercase key = toLowercase other →
            ((∀ count, 0 < count → domainFor key count = domainFor other count) ↔
              finalSigmas key = finalSigmas other))) := by
  refine ⟨hash_eq_lowercaseHash, fun same finals count => ?_, fun shards domains some_ divides =>
    domainOfShard_shardFor key some_ divides, fun collisionFree => ⟨?_, fun same => ?_⟩⟩
  · have hashes := hash_eq_of_finalSigmas same finals
    rw [domainFor, domainFor, shardFor, shardFor, hashes]
    exact ⟨rfl, rfl⟩
  · have fed : hashLowercaseKey key = lowercaseHash key ↔
        lowercaseKeyBytes key = lowercaseBytes key :=
      collisionFree.eq_iff (Or.inl rfl) (Or.inr (Or.inr rfl))
    rw [fed, lowercaseKeyBytes, lowercaseBytes, hashed_eq_iff, toLowercase, ofList_eq_iff]
    exact charwise_eq_lowercase_iff
  · have fed : hashLowercaseKey key = hashLowercaseKey other ↔
        finalSigmas key = finalSigmas other := by
      rw [← charwise_eq_iff_finals same, charwiseFrom, charwiseFrom, ← ofList_eq_iff,
        ← hashed_eq_iff]
      exact collisionFree.eq_iff (Or.inl rfl) (Or.inr (Or.inl rfl))
    rw [← fed]
    constructor
    · exact hash_eq_of_domains
    · intro hashes count _
      rw [domainFor, domainFor, hashes]

end Routing

/-! ## Greek names -/

/-- The case of the Greek and the ASCII letters, and the hash of a `DefaultHasher`. -/
abbrev greekHash : NameHash where
  finish := SipHash.digest
  charToLowercase c :=
    [if 'Α' ≤ c ∧ c ≤ 'Ω' then Char.ofNat (c.toNat + 32) else c.toLower]

/-- Letters are cased, and an apostrophe is ignored. -/
abbrev greekCase : CaseProperties where
  cased c := c.isAlpha || ('Α' ≤ c && c ≤ 'ω')
  caseIgnorable c := c == '\''

theorem greek_lawful : @LawfulNameHash greekHash := @LawfulNameHash.mk greekHash rfl

/-- A capital sigma at the beginning of a word is an ordinary one. -/
theorem initial_sigma_routed :
    letI := greekHash
    letI := greekCase
    hashLowercaseKey "ΣΑ" = lowercaseHash "ΣΑ" ∧
      ∀ count, 0 < count → domainFor "ΣΑ" count = domainFor "σα" count := by
  let := greekHash
  let := greekCase
  have routed := @routing_follows_lowercase greekCase greekHash greek_lawful "ΣΑ" "σα"
  refine ⟨routed.1 ?_, fun count _ => (routed.2.1 (by decide) (by decide) count).1⟩
  rw [← mem_finalSigmas]
  decide

/-- A capital sigma at the end of a word is routed as if it stood elsewhere. -/
theorem final_sigma_misrouted :
    letI := greekHash
    letI := greekCase
    toLowercase "ΟΔΟΣ" = toLowercase "οδος" ∧
      hashLowercaseKey "ΟΔΟΣ" ≠ lowercaseHash "ΟΔΟΣ" ∧
      domainFor "ΟΔΟΣ" 2 ≠ domainFor "οδος" 2 := by
  decide

end OpenMemory.Engine.Partition
