/-
`canonical_pool_terms`: what a handback region is bound to.

The terms are a constant, the compatibility digest with a zero byte behind it, the sixteen
bytes of the generation, the descriptors in msgpack and four 64-bit numbers, with no
length anywhere. Each part is self-delimiting: the constant because it is one, the digest
because it has no zero byte, the generation and the numbers because they have one length,
and msgpack because every value of it says where it ends. So the whole is, and since a
region's digest is taken over the terms and then the body, two different sets of terms
never hash the same bytes, wherever the body starts.

What remains is SHA-256 itself. No function into 32 bytes is injective, so the results
name the two byte strings that would have to collide.
-/
import Kvcr.Lib.Codes
import Kvcr.GuardRecovery

set_option autoImplicit false

namespace Kvcr.Guard

open Bytes Codes Journal Handback

/-! ## The parts -/

/-- `str.encode`. -/
def utf8 (text : String) : List UInt8 := text.toUTF8.data.toList

theorem utf8_injective : Function.Injective utf8 := by
  intro s t h
  exact String.toByteArray_inj.mp (ByteArray.ext (Array.toList_inj.mp h))

/-- The value of a hexadecimal digit of either case. -/
def hex_digit (c : Char) : Option Nat :=
  if '0'.toNat ≤ c.toNat ∧ c.toNat ≤ '9'.toNat then some (c.toNat - '0'.toNat)
  else if 'a'.toNat ≤ c.toNat ∧ c.toNat ≤ 'f'.toNat then some (c.toNat - 'a'.toNat + 10)
  else if 'A'.toNat ≤ c.toNat ∧ c.toNat ≤ 'F'.toNat then some (c.toNat - 'A'.toNat + 10)
  else none

/-- The blanks that `bytes.fromhex` skips between two bytes. -/
def is_space (c : Char) : Bool :=
  c = ' ' || ('\t'.toNat ≤ c.toNat && c.toNat ≤ '\r'.toNat)

/-- `bytes.fromhex`. -/
def fromhex : List Char → Option (List UInt8)
  | [] => some []
  | [c] => if is_space c then some [] else none
  | c :: d :: rest =>
    if is_space c then fromhex (d :: rest)
    else do
      let high ← hex_digit c
      let low ← hex_digit d
      let bytes ← fromhex rest
      return UInt8.ofNat (16 * high + low) :: bytes

/-- The digits of `\A[0-9a-f]{32}\Z`. -/
def lower_digits : List Char :=
  ['0', '1', '2', '3', '4', '5', '6', '7', '8', '9', 'a', 'b', 'c', 'd', 'e', 'f']

/-- The pattern of `KVCRPoolSpec.generation`. -/
def is_generation (generation : String) : Bool :=
  generation.toList.length = 32 && generation.toList.all (· ∈ lower_digits)

/-- The digits of a byte, for reading `fromhex` backwards. -/
def hex_byte (b : UInt8) : List Char :=
  [lower_digits.getD (b.toNat / 16) '0', lower_digits.getD (b.toNat % 16) '0']

theorem hex_digits {c : Char} (hc : c ∈ lower_digits) : is_space c = false ∧
    hex_digit c = some (lower_digits.idxOf c) ∧ lower_digits.idxOf c < 16 ∧
    lower_digits.getD (lower_digits.idxOf c) '0' = c := by
  have hall : lower_digits.all (fun c => is_space c = false ∧
      hex_digit c = some (lower_digits.idxOf c) ∧ lower_digits.idxOf c < 16 ∧
      lower_digits.getD (lower_digits.idxOf c) '0' = c) = true := by rfl
  exact of_decide_eq_true (List.all_eq_true.mp hall c hc)

/-- Pairs of lowercase digits are bytes, and the bytes determine them. -/
theorem fromhex_lower {n : Nat} {digits : List Char} (hlength : digits.length = 2 * n)
    (hlower : ∀ c ∈ digits, c ∈ lower_digits) :
    ∃ bytes, fromhex digits = some bytes ∧ bytes.length = n ∧
      bytes.flatMap hex_byte = digits := by
  induction n generalizing digits with
  | zero =>
    rw [List.length_eq_zero_iff.mp hlength]
    exact ⟨[], rfl, rfl, rfl⟩
  | succ n ih =>
    match digits, hlength, hlower with
    | c :: d :: rest, hlength, hlower =>
      obtain ⟨hspace, hhigh, hhighlt, hc⟩ := hex_digits (hlower c (by simp))
      obtain ⟨-, hlow, hlowlt, hd⟩ := hex_digits (hlower d (by simp))
      generalize lower_digits.idxOf c = high at hhigh hhighlt hc
      generalize lower_digits.idxOf d = low at hlow hlowlt hd
      have hrest : rest.length = 2 * n := by
        simp only [List.length_cons] at hlength
        omega
      obtain ⟨bytes, hbytes, hlen, hback⟩ := ih hrest
        fun x hx => hlower x (List.mem_cons_of_mem c (List.mem_cons_of_mem d hx))
      refine ⟨UInt8.ofNat (16 * high + low) :: bytes, ?_, by rw [List.length_cons, hlen], ?_⟩
      · rw [fromhex, hspace, hhigh, hlow, hbytes]
        rfl
      · have hvalue : (UInt8.ofNat (16 * high + low)).toNat = 16 * high + low := by
          rw [UInt8.toNat_ofNat']
          omega
        have hdiv : (16 * high + low) / 16 = high := by omega
        have hmod : (16 * high + low) % 16 = low := by omega
        rw [List.flatMap_cons, hback, hex_byte, hvalue, hdiv, hmod, hc, hd]
        rfl

/-- `KVCRPoolSpec`, without the name and the path of the file. -/
structure KVCRPoolSpec where
  generation : String
  device : Nat
  inode : Nat
  mapping_bytes : Nat
  journal_bytes : Nat
deriving DecidableEq

/-- msgpack over descriptor lists. -/
structure PoolsCodec where
  encode : List PoolDescriptor → List UInt8
  unambiguous : SelfDelimiting encode

deriving instance Countable for PoolDescriptor

/-- Such encodings exist. -/
theorem exists_pools_codec : Nonempty PoolsCodec := by
  obtain ⟨number, hnumber⟩ := exists_injective_nat (List PoolDescriptor)
  refine ⟨fun pools => List.replicate (number pools) 1 ++ [0], ?_⟩
  refine SelfDelimiting.terminated (fun pools hzero => ?_) ?_
  · exact absurd (List.eq_of_mem_replicate hzero) (by decide)
  · intro a b hab
    have hlength := congrArg List.length hab
    dsimp only at hlength
    rw [List.length_replicate, List.length_replicate] at hlength
    exact hnumber hlength

/-- What `canonical_pool_terms` may raise. -/
inductive TermsError where
  /-- `bytes.fromhex` of anything else -/
  | value_error
  /-- `struct.error`: a number that does not fit -/
  | struct_error
deriving DecidableEq

/-- `_SNAPSHOT_DOMAIN`. -/
def SNAPSHOT_DOMAIN : List UInt8 := utf8 "KVCR-HANDBACK" ++ [0]

/-- `_SNAPSHOT_TERMS.pack`. -/
def pack_terms (a b c d : Nat) : Except TermsError (List UInt8) :=
  if a < 2 ^ 64 ∧ b < 2 ^ 64 ∧ c < 2 ^ 64 ∧ d < 2 ^ 64 then
    .ok (pack_le 8 a ++ pack_le 8 b ++ pack_le 8 c ++ pack_le 8 d)
  else .error .struct_error

/-- `canonical_pool_terms`. -/
def canonical_pool_terms (codec : PoolsCodec) (compatibility_digest : String)
    (pools : List PoolDescriptor) (spec : KVCRPoolSpec) : Except TermsError (List UInt8) :=
  match fromhex spec.generation.toList with
  | none => .error .value_error
  | some generation =>
    match pack_terms spec.journal_bytes spec.mapping_bytes spec.device spec.inode with
    | .error e => .error e
    | .ok numbers =>
      .ok (SNAPSHOT_DOMAIN ++ utf8 compatibility_digest ++ [0] ++ generation ++
        codec.encode pools ++ numbers)

/-! ## Terms that can be encoded -/

/-- A digest and a pool as a service has them: no zero byte in the digest, a generation of
the declared pattern, and 64-bit numbers. -/
structure PoolTerms where
  compatibility_digest : String
  pools : List PoolDescriptor
  spec : KVCRPoolSpec
  digest_nul : 0 ∉ utf8 compatibility_digest
  generation : is_generation spec.generation
  journal_bytes : spec.journal_bytes < 2 ^ 64
  mapping_bytes : spec.mapping_bytes < 2 ^ 64
  device : spec.device < 2 ^ 64
  inode : spec.inode < 2 ^ 64

/-- A digest without a zero byte. -/
abbrev PlainDigest := { digest : String // 0 ∉ utf8 digest }

/-- A generation of the declared pattern. -/
abbrev Generation := { generation : String // is_generation generation }

/-- A number that `Q` packs. -/
abbrev Word := { n : Nat // n < 2 ^ 64 }

namespace PoolTerms

/-- The parts in the order of the encoding. -/
def parts (t : PoolTerms) :
    PlainDigest × Generation × List PoolDescriptor × Word × Word × Word × Word :=
  (⟨t.compatibility_digest, t.digest_nul⟩, ⟨t.spec.generation, t.generation⟩, t.pools,
    ⟨t.spec.journal_bytes, t.journal_bytes⟩, ⟨t.spec.mapping_bytes, t.mapping_bytes⟩,
    ⟨t.spec.device, t.device⟩, ⟨t.spec.inode, t.inode⟩)

theorem parts_injective : Function.Injective parts := by
  rintro ⟨digest, pools, ⟨generation, device, inode, mapping_bytes, journal_bytes⟩⟩
    ⟨digest', pools', ⟨generation', device', inode', mapping_bytes', journal_bytes'⟩⟩ h
  simp only [parts, Prod.mk.injEq, Subtype.mk.injEq] at h
  obtain ⟨rfl, rfl, rfl, rfl, rfl, rfl, rfl⟩ := h
  rfl

end PoolTerms

/-! ## Each part says where it ends -/

theorem self_delimiting_digest :
    SelfDelimiting fun digest : PlainDigest => utf8 digest.1 ++ [0] :=
  SelfDelimiting.terminated (fun digest => digest.2) fun _ _ h => Subtype.ext (utf8_injective h)

/-- The bytes of a generation. -/
def Generation.bytes (generation : Generation) : List UInt8 :=
  (fromhex generation.1.toList).getD []

theorem Generation.digits (generation : Generation) :
    fromhex generation.1.toList = some generation.bytes ∧ generation.bytes.length = 16 ∧
      generation.bytes.flatMap hex_byte = generation.1.toList := by
  have hpattern := generation.2
  rw [is_generation, Bool.and_eq_true, decide_eq_true_iff, List.all_eq_true] at hpattern
  obtain ⟨bytes, hbytes, hlength, hback⟩ := fromhex_lower (n := 16) hpattern.1
    fun c hc => of_decide_eq_true (hpattern.2 c hc)
  have hsame : generation.bytes = bytes := by rw [Generation.bytes, hbytes, Option.getD_some]
  rw [hsame]
  exact ⟨hbytes, hlength, hback⟩

theorem self_delimiting_generation : SelfDelimiting Generation.bytes := by
  refine SelfDelimiting.of_length (fun generation => generation.digits.2.1) ?_
  intro a b hab
  refine Subtype.ext (String.toList_inj.mp ?_)
  rw [← a.digits.2.2, ← b.digits.2.2, hab]

theorem self_delimiting_word : SelfDelimiting fun n : Word => pack_le 8 n.1 := by
  refine SelfDelimiting.of_length (fun n => length_pack_le 8 n.1) ?_
  intro a b hab
  have ha : unpack_le (pack_le 8 a.1) = a.1 := unpack_pack_le (by have := a.2; omega)
  have hb : unpack_le (pack_le 8 b.1) = b.1 := unpack_pack_le (by have := b.2; omega)
  dsimp only at hab
  exact Subtype.ext (by rw [← ha, ← hb, hab])

/-! ## The whole -/

namespace PoolTerms

variable (codec : PoolsCodec)

/-- The terms, part by part. -/
def bytes (t : PoolTerms) : List UInt8 :=
  SNAPSHOT_DOMAIN ++ ((utf8 t.parts.1.1 ++ [0]) ++ (t.parts.2.1.bytes ++
    (codec.encode t.parts.2.2.1 ++ (pack_le 8 t.parts.2.2.2.1.1 ++
      (pack_le 8 t.parts.2.2.2.2.1.1 ++ (pack_le 8 t.parts.2.2.2.2.2.1.1 ++
        pack_le 8 t.parts.2.2.2.2.2.2.1))))))

theorem canonical_eq (t : PoolTerms) :
    canonical_pool_terms codec t.compatibility_digest t.pools t.spec = .ok (t.bytes codec) := by
  have hgeneration := (Generation.digits ⟨t.spec.generation, t.generation⟩).1
  have hnumbers : t.spec.journal_bytes < 2 ^ 64 ∧ t.spec.mapping_bytes < 2 ^ 64 ∧
      t.spec.device < 2 ^ 64 ∧ t.spec.inode < 2 ^ 64 :=
    ⟨t.journal_bytes, t.mapping_bytes, t.device, t.inode⟩
  rw [canonical_pool_terms, hgeneration, pack_terms, if_pos hnumbers]
  simp only [bytes, parts, List.append_assoc]

theorem self_delimiting_bytes : SelfDelimiting (bytes codec) := by
  have hnumbers := self_delimiting_word.seq (self_delimiting_word.seq
    (self_delimiting_word.seq self_delimiting_word))
  have hparts := self_delimiting_digest.seq (self_delimiting_generation.seq
    (codec.unambiguous.seq hnumbers))
  exact (hparts.after SNAPSHOT_DOMAIN).comap parts_injective

end PoolTerms

/-! ## Regions of other terms -/

/-- Two byte strings with one digest. -/
def Collision (sha : Sha256) (x y : List UInt8) : Prop := x ≠ y ∧ sha.digest x = sha.digest y

/-- The body that a region's header declares. -/
def declared_body (region : List UInt8) : List UInt8 :=
  (region.drop SNAPSHOT_HEADER_SIZE).take (unpack_le ((region.drop 32).take 8))

/-- What the reader says of a digest that does not match. -/
def other_terms : SnapshotError :=
  .refused "handback region is unfinished or was written for other terms"

section Regions

variable {sha : Sha256} {terms region : List UInt8}

/-- A reader checks the digest over its own terms and the declared body before it yields
anything. -/
theorem read_of_digest_ne (hregion : region ≠ [])
    (hdigest : region.take 32 ≠ sha.digest (terms ++ declared_body region)) :
    ∃ error, read_recovery_snapshot sha terms region = .fail error := by
  rw [declared_body] at hdigest
  unfold read_recovery_snapshot
  rw [if_neg hregion]
  simp only [if_pos hdigest]
  split
  · exact ⟨_, rfl⟩
  split
  · exact ⟨_, rfl⟩
  split <;> exact ⟨_, rfl⟩

/-- A finished region has its header in front of the body it declares. -/
theorem declared_body_finished {frames : List Frame} (h : Finished sha terms region frames)
    (hframes : frames ≠ []) :
    SNAPSHOT_HEADER_SIZE ≤ region.length ∧
      region.take 32 = sha.digest (terms ++ snapshot_body frames) ∧
      unpack_le ((region.drop 32).take 8) = (snapshot_body frames).length ∧
      (snapshot_body frames).length ≤ region.length - SNAPSHOT_HEADER_SIZE ∧
      declared_body region = snapshot_body frames := by
  cases h with
  | absent => exact absurd rfl hframes
  | written _ rest _ _ hbody =>
    have hlength : (snapshot_header sha terms (snapshot_body frames)).length =
        SNAPSHOT_HEADER_SIZE := length_snapshot_header
    obtain ⟨hdigest, hsize⟩ := unpack_snapshot_header hbody (List.take_left' hlength)
    refine ⟨?_, hdigest, hsize, ?_, ?_⟩
    · rw [List.length_append, hlength]
      exact Nat.le_add_right _ _
    · rw [List.length_append, hlength, List.length_append]
      omega
    · rw [declared_body, hsize, List.drop_left' hlength]
      exact List.take_left' rfl

/-- Read with terms that give another digest, a finished region is refused. -/
theorem read_other_terms {other : List UInt8} {frames : List Frame}
    (h : Finished sha terms region frames) (hframes : frames ≠ [])
    (hdigest : sha.digest (terms ++ snapshot_body frames) ≠
      sha.digest (other ++ snapshot_body frames)) :
    read_recovery_snapshot sha other region = .fail other_terms := by
  obtain ⟨hlength, hheader, hsize, hfits, hdeclared⟩ := declared_body_finished h hframes
  have hpos := List.length_pos_iff.mpr (snapshot_body_ne_nil hframes)
  have hregion : region ≠ [] := by
    rintro rfl
    exact absurd hlength (by decide)
  rw [declared_body, hsize] at hdeclared
  unfold read_recovery_snapshot
  simp only [hsize, hheader, hdeclared]
  rw [if_neg hregion, if_neg (by omega), if_neg (by omega), if_neg (by omega), if_pos hdigest]
  rfl

/-- What is refused is reported and left in place. -/
theorem read_handback_other {msgpack : Msgpack} {pool_names : List String}
    (h : read_recovery_snapshot sha terms region = .fail other_terms) :
    read_handback msgpack sha terms pool_names region =
      (.error (.snapshot other_terms), region) := by
  rw [read_handback, h]
  rfl

end Regions

/-- Handback terms identify the pool. Terms are always encoded, equal terms come from equal
digests, descriptors and pool identities, and neither do terms followed by a body agree with
other terms followed by any body. So a region that a writer finished under one set of terms
is refused under every other, with its frames neither replayed nor discarded, unless the two
byte strings named are a collision of SHA-256; and so is any region that carries a digest
over the first terms and any body, whatever size it declares. -/
theorem pool_terms_identify_pool (codec : PoolsCodec) (a b : PoolTerms) :
    ∃ terms other,
      canonical_pool_terms codec a.compatibility_digest a.pools a.spec = .ok terms ∧
      canonical_pool_terms codec b.compatibility_digest b.pools b.spec = .ok other ∧
      (terms = other → a = b) ∧
      (∀ x y, terms ++ x = other ++ y → a = b ∧ x = y) ∧
      (a ≠ b → ∀ (sha : Sha256) (backing : Backing) (before : List UInt8) (frames : List Frame)
        (fault : Option (Nat × SnapshotError)) (msgpack : Msgpack) (pool_names : List String),
        let written := write_recovery_snapshot sha backing terms frames fault
        let region := run written.steps before
        frames ≠ [] → written.raised = none →
        read_recovery_snapshot sha terms region = { frames := frames } ∧
        ((read_recovery_snapshot sha other region = .fail other_terms ∧
            read_handback msgpack sha other pool_names region =
              (.error (.snapshot other_terms), region)) ∨
          Collision sha (terms ++ snapshot_body frames) (other ++ snapshot_body frames))) ∧
      (a ≠ b → ∀ (sha : Sha256) (region body : List UInt8),
        region.take 32 = sha.digest (terms ++ body) →
        (∃ error, read_recovery_snapshot sha other region = .fail error) ∨
          Collision sha (terms ++ body) (other ++ declared_body region)) := by
  have hsplit := PoolTerms.self_delimiting_bytes codec a b
  refine ⟨a.bytes codec, b.bytes codec, a.canonical_eq codec, b.canonical_eq codec,
    fun h => (PoolTerms.self_delimiting_bytes codec).injective h, hsplit, ?_, ?_⟩
  · intro hne sha backing before frames fault msgpack pool_names written region hframes hraised
    have hfinished : Finished sha (a.bytes codec) region frames :=
      finished_rewrite before frames fault hraised
    refine ⟨hfinished.read, ?_⟩
    by_cases hdigest : sha.digest (a.bytes codec ++ snapshot_body frames) =
        sha.digest (b.bytes codec ++ snapshot_body frames)
    · exact .inr ⟨fun hsame => hne (hsplit _ _ hsame).1, hdigest⟩
    · have hread := read_other_terms hfinished hframes hdigest
      exact .inl ⟨hread, read_handback_other hread⟩
  · intro hne sha region body hdigest
    have hregion : region ≠ [] := by
      rintro rfl
      have hlength := congrArg List.length hdigest
      rw [sha.length_digest, List.take_nil, List.length_nil] at hlength
      exact absurd hlength (by decide)
    by_cases hsame : sha.digest (a.bytes codec ++ body) =
        sha.digest (b.bytes codec ++ declared_body region)
    · exact .inr ⟨fun h => hne (hsplit _ _ h).1, hsame⟩
    · rw [← hdigest] at hsame
      exact .inl (read_of_digest_ne hregion hsame)

theorem pool_terms_of_two_inodes :
    let spec : KVCRPoolSpec :=
      { generation := "00112233445566778899aabbccddeeff", device := 1, inode := 7,
        mapping_bytes := 8192, journal_bytes := 4096 }
    ∃ (codec : PoolsCodec) (terms other : List UInt8),
      canonical_pool_terms codec "digest" [] spec = .ok terms ∧
      canonical_pool_terms codec "digest" [] { spec with inode := 8 } = .ok other ∧
      terms ≠ other ∧
      (let written := write_recovery_snapshot Sha256.zero Backing.plain terms
        [{ key := [1], payload := [2] }] none
      read_recovery_snapshot Sha256.zero terms (run written.steps []) =
        { frames := [{ key := [1], payload := [2] }] }) := by
  intro spec
  obtain ⟨codec⟩ := exists_pools_codec
  let a : PoolTerms :=
    ⟨"digest", [], spec, by decide, by decide, by decide, by decide, by decide, by decide⟩
  let b : PoolTerms :=
    ⟨"digest", [], { spec with inode := 8 }, by decide, by decide, by decide, by decide,
      by decide, by decide⟩
  have hne : a ≠ b := by
    intro h
    exact absurd (congrArg (·.spec.inode) h) (by decide)
  obtain ⟨msgpack, -⟩ := exists_msgpack {} []
  obtain ⟨terms, other, hterms, hother, hsame, -, hregion, -⟩ :=
    pool_terms_identify_pool codec a b
  exact ⟨codec, terms, other, hterms, hother, fun h => hne (hsame h),
    (hregion hne Sha256.zero Backing.plain [] [{ key := [1], payload := [2] }] none msgpack []
      (by decide) rfl).1⟩

end Kvcr.Guard
