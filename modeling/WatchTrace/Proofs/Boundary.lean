import WatchTrace.Model.Destination

/-!
# The network boundary

What `ValidateURL`, `isPublicAddress` and the policy of a worker let through. An
address is public unless it is one of the reserved ones, and the list of those has two
holes: addresses that embed an IPv4 address in the deprecated compatible form, and
the deprecated site-local ones. A URL that `ValidateURL` refuses is accepted after all
when its host is an address the policy allows, whatever it was refused for.
-/

namespace WatchTrace.Proofs.Boundary

open Model.Destination

/-! ## Leading bits -/

section Leading

variable {w k m n : Nat} {a b c : BitVec w}

theorem leading_iff : leading a b n = true ↔ a >>> (w - n) = b >>> (w - n) := beq_iff_eq

theorem leading_mono (h : leading a b n = true) (hmn : m ≤ n) (hn : n ≤ w) :
    leading a b m = true := by
  rw [leading_iff] at h ⊢
  have hsum : w - m = w - n + (n - m) := by omega
  rw [hsum, BitVec.shiftRight_add, BitVec.shiftRight_add, h]

/-- An address of one network is not in another one that differs early enough. -/
theorem leading_apart (h : leading a b n = true) (hbc : leading b c (min n m) = false)
    (hn : n ≤ w) (hm : m ≤ w) : leading a c m = false := by
  by_contra hac
  have hb := leading_mono h (Nat.min_le_left n m) hn
  have hc := leading_mono (Bool.not_eq_false _ ▸ hac) (Nat.min_le_right n m) hm
  rw [leading_iff] at hb hc
  exact absurd (leading_iff.mpr (hb.symm.trans hc)) (by rw [hbc]; exact Bool.false_ne_true)

end Leading

/-! ## Which addresses are public -/

/-- The networks of IPv6 that are not public, and the one of the mapped addresses. -/
def reserved : List (BitVec 128 × Nat) :=
  (ipv6 [0, 0, 0, 0, 0, 0xffff], 96) :: (ipv6 [0xfc00], 7) :: (ipv6 [0xfe80], 10) ::
    (ipv6 [0xff00], 8) :: deniedSpecialUsePrefixes.filterMap fun
      | .v4 .. => none
      | .v6 bits length => some (bits, length)

variable {a : BitVec 128} {zone : String}

/-- Outside the reserved networks only `::` and `::1` are not public. -/
theorem public_of_unreserved (h : ∀ r ∈ reserved, leading a r.1 r.2 = false) :
    isPublicAddress (.v6 a "") = decide (a ≠ 0 ∧ a ≠ 1) := by
  simp only [reserved, deniedSpecialUsePrefixes, List.filterMap_cons, List.filterMap_nil,
    List.forall_mem_cons, List.not_mem_nil, false_implies, implies_true, and_true] at h
  simp [isPublicAddress, Addr.isValid, Addr.zone, Addr.unmap, Addr.isGlobalUnicast,
    Addr.isPrivate, Addr.isLoopback, Addr.isLinkLocalUnicast, Addr.isMulticast,
    Addr.isUnspecified, deniedSpecialUsePrefixes, Prefix.contains, h]
  exact fun hzero _ => hzero

variable {b : BitVec 128} {n : Nat}

/-- A network that differs from every reserved one. -/
theorem public_apart (h : leading a b n = true) (hn : n ≤ 128)
    (hb : ∀ r ∈ reserved, r.2 ≤ 128 ∧ leading b r.1 (min n r.2) = false) :
    isPublicAddress (.v6 a "") = decide (a ≠ 0 ∧ a ≠ 1) :=
  public_of_unreserved fun r hr => leading_apart h (hb r hr).2 hn (hb r hr).1

theorem public_zone (hzone : zone ≠ "") : isPublicAddress (.v6 a zone) = false := by
  simp [isPublicAddress, Addr.zone, hzone]

/-- In a network of the list, no address is public. -/
theorem not_public_denied (h : leading a b n = true) (hn : n ≤ 128)
    (hmem : Prefix.v6 b n ∈ deniedSpecialUsePrefixes)
    (hmapped : leading b (ipv6 [0, 0, 0, 0, 0, 0xffff]) (min n 96) = false) :
    isPublicAddress (.v6 a zone) = false := by
  by_cases hzone : zone = ""
  · subst hzone
    have hunmapped := leading_apart h hmapped hn (by decide)
    have hany : (deniedSpecialUsePrefixes.any fun p => p.contains (.v6 a "")) = true :=
      List.any_eq_true.mpr ⟨_, hmem, h⟩
    simp [isPublicAddress, Addr.unmap, hunmapped, hany]
  · exact public_zone hzone

/-! ## Embedded addresses -/

/-- An IPv6 address in one of the networks that embed an IPv4 address, and that
address. A Teredo address has two: its server's, and its client's with every bit flipped. -/
inductive Embeds (a : BitVec 128) : BitVec 32 → Prop
  | mapped (h : leading a (ipv6 [0, 0, 0, 0, 0, 0xffff]) 96 = true) : Embeds a (a.setWidth 32)
  | compatible (h : leading a (ipv6 []) 96 = true) : Embeds a (a.setWidth 32)
  | nat64 (h : leading a (ipv6 [0x64, 0xff9b]) 96 = true) : Embeds a (a.setWidth 32)
  | sixToFour (h : leading a (ipv6 [0x2002]) 16 = true) : Embeds a ((a >>> 80).setWidth 32)
  | teredoServer (h : leading a (ipv6 [0x2001]) 32 = true) : Embeds a ((a >>> 64).setWidth 32)
  | teredoClient (h : leading a (ipv6 [0x2001]) 32 = true) : Embeds a (~~~a.setWidth 32)

def uniqueLocal (a : BitVec 128) : Bool := leading a (ipv6 [0xfc00]) 7

def linkLocal (a : BitVec 128) : Bool := leading a (ipv6 [0xfe80]) 10

def siteLocal (a : BitVec 128) : Bool := leading a (ipv6 [0xfec0]) 10

/-- Neither as it is, nor under a policy without private networks. -/
def Blocked (a : Addr) : Prop :=
  isPublicAddress a = false ∧ ∀ redirects, addressAllowed ⟨[], redirects⟩ a = false

theorem blocked_of_not_public (hunmapped : leading a (ipv6 [0, 0, 0, 0, 0, 0xffff]) 96 = false)
    (h : isPublicAddress (.v6 a zone) = false) : Blocked (.v6 a zone) := by
  simp [Blocked, addressAllowed, Addr.unmap, hunmapped, h]

theorem blocked_mapped (hmapped : leading a (ipv6 [0, 0, 0, 0, 0, 0xffff]) 96 = true)
    (h : isPublicAddress (.v4 (a.setWidth 32)) = false) : Blocked (.v6 a zone) := by
  simp only [isPublicAddress, Addr.isValid, Addr.zone, Addr.unmap, bne_self_eq_false] at h
  simp [Blocked, addressAllowed, Addr.unmap, hmapped, isPublicAddress, Addr.zone, Addr.isValid]
  exact ⟨fun _ => by simpa using h, by simpa using h⟩

theorem blocked_local (h : leading a b n = true) (hn : n ≤ 128)
    (hb : leading b (ipv6 [0, 0, 0, 0, 0, 0xffff]) (min n 96) = false)
    (hlocal : (Addr.v6 a zone).isPrivate = true ∨ (Addr.v6 a zone).isLinkLocalUnicast = true) :
    Blocked (.v6 a zone) := by
  have hunmapped := leading_apart h hb hn (by decide)
  refine blocked_of_not_public hunmapped ?_
  rcases hlocal with h | h <;> simp [isPublicAddress, Addr.unmap, hunmapped, h]

/-- A public IPv4 address, in terms of the standard library and of the list. -/
def ordinary (v : BitVec 32) : Bool :=
  (Addr.v4 v).isGlobalUnicast && !(Addr.v4 v).isPrivate &&
    !deniedSpecialUsePrefixes.any fun p => p.contains (.v4 v)

theorem isPublicAddress_v4 (v : BitVec 32) : isPublicAddress (.v4 v) = ordinary v := by
  unfold ordinary
  cases h : (Addr.v4 v).isGlobalUnicast with
  | false => simp [isPublicAddress, Addr.unmap, h]
  | true =>
  have hparts := h
  simp only [Addr.isGlobalUnicast, Bool.and_eq_true, bne_iff_ne, Bool.not_eq_true'] at hparts
  have hzero : v ≠ 0#32 := fun hv => hparts.1.1.1.1.1.2 (congrArg Addr.v4 hv)
  simp [isPublicAddress, Addr.isValid, Addr.zone, Addr.unmap, h, hparts, Addr.isUnspecified, hzero]

theorem public_compatible (h : leading a (ipv6 []) 96 = true) :
    isPublicAddress (.v6 a "") = decide (a ≠ 0 ∧ a ≠ 1) := public_apart h (by decide) (by decide)

theorem public_siteLocal (h : siteLocal a = true) : isPublicAddress (.v6 a "") = true := by
  rw [public_apart h (by decide) (by decide), decide_eq_true_iff]
  refine ⟨?_, ?_⟩
  · rintro rfl
    exact absurd h (by decide)
  · rintro rfl
    exact absurd h (by decide)

/-- Of the networks that embed addresses only the compatible one is missing from the list,
and of the local ones only the site-local one. -/
theorem embedded_not_public_iff (a : BitVec 128) (zone : String) :
    ((∀ v, Embeds a v → isPublicAddress (.v4 v) = false → Blocked (.v6 a zone)) ∧
      (uniqueLocal a ∨ linkLocal a ∨ siteLocal a → Blocked (.v6 a zone))) ↔
    (zone = "" → siteLocal a = false ∧
      (leading a (ipv6 []) 96 → a = 0 ∨ a = 1 ∨ ordinary (a.setWidth 32))) := by
  have hdenied : ∀ {b : BitVec 128} {n : Nat}, leading a b n = true → n ≤ 128 →
      Prefix.v6 b n ∈ deniedSpecialUsePrefixes →
      leading b (ipv6 [0, 0, 0, 0, 0, 0xffff]) (min n 96) = false → Blocked (.v6 a zone) :=
    fun h hn hmem hb => blocked_of_not_public (leading_apart h hb hn (by decide))
      (not_public_denied h hn hmem hb)
  constructor
  · rintro ⟨hembeds, hlocal⟩ rfl
    refine ⟨?_, fun hcompatible => ?_⟩
    · by_contra hsite
      have hsite := Bool.not_eq_false _ ▸ hsite
      have hblocked := (hlocal (.inr (.inr hsite))).1
      rw [public_siteLocal hsite] at hblocked
      cases hblocked
    · by_contra hbad
      simp only [not_or, Bool.not_eq_true] at hbad
      obtain ⟨hzero, hone, hv⟩ := hbad
      have hblocked := (hembeds _ (.compatible hcompatible) (by rw [isPublicAddress_v4, hv])).1
      rw [public_compatible hcompatible, decide_eq_false_iff_not] at hblocked
      exact hblocked ⟨hzero, hone⟩
  · intro hcond
    refine ⟨fun v hv hprivate => ?_, fun hlocal => ?_⟩
    · cases hv with
      | mapped h => exact blocked_mapped h hprivate
      | compatible h =>
        refine blocked_of_not_public (leading_apart h (by decide) (by decide) (by decide)) ?_
        by_cases hzone : zone = ""
        · subst hzone
          rw [public_compatible h, decide_eq_false_iff_not]
          rintro ⟨hzero, hone⟩
          rw [isPublicAddress_v4] at hprivate
          rcases (hcond rfl).2 h with hz | ho | hord
          · exact hzero hz
          · exact hone ho
          · rw [hord] at hprivate
            cases hprivate
        · exact public_zone hzone
      | nat64 h | sixToFour h | teredoServer h | teredoClient h =>
        exact hdenied h (by decide) (by simp [deniedSpecialUsePrefixes]) (by decide)
    · rcases hlocal with h | h | h
      · exact blocked_local h (by decide) (by decide) (.inl h)
      · exact blocked_local h (by decide) (by decide) (.inr h)
      · refine blocked_of_not_public (leading_apart h (by decide) (by decide) (by decide)) ?_
        refine public_zone fun hzone => ?_
        rw [(hcond hzone).1] at h
        cases h

/-- The loopback address in its compatible form is public, and so is a site-local one. -/
theorem loopback_compatible_public : Embeds (ipv6 [0, 0, 0, 0, 0, 0, 0x7f00, 1]) (ipv4 127 0 0 1) ∧
      isPublicAddress (.v4 (ipv4 127 0 0 1)) = false ∧
      isPublicAddress (.v6 (ipv6 [0, 0, 0, 0, 0, 0, 0x7f00, 1]) "") = true ∧
      siteLocal (ipv6 [0xfec0, 0, 0, 0, 0, 0, 0, 1]) = true ∧
      addressAllowed ⟨[], 3⟩ (.v6 (ipv6 [0xfec0, 0, 0, 0, 0, 0, 0, 1]) "") = true :=
  ⟨.compatible (by decide), by decide, by decide, by decide, by decide⟩

/-! ## URLs -/

/-- Every rule of `ValidateURL` except the one about addresses. -/
structure Proper (u : Url) : Prop where
  absolute : u.isAbs = true
  scheme : lower u.scheme = "http".toList ∨ lower u.scheme = "https".toList
  user : u.hasUser = false
  fragment : u.fragment = ""
  opaquePart : u.rest = ""
  host : u.host ≠ ""
  hostname : u.hostname ≠ ""
  zone : '%' ∉ u.hostname.toList
  colon : [':'].isSuffixOf u.host.toList = false
  port : u.port = "" ∨ u.port = "80" ∨ u.port = "443"
  localhost : isLocalhost u.hostname = false

variable {L : Library} {raw : String} {policy : Policy} {u : Url}

theorem proper_of_valid (h : validateURL L raw = none) : ∃ u, L.parse raw = some u ∧ Proper u ∧
      ∀ address, L.parseAddr u.hostname = some address → isPublicAddress address = true := by
  unfold validateURL at h
  cases hparse : L.parse raw with
  | none =>
    rw [hparse] at h
    cases h
  | some u =>
  simp only [hparse] at h
  split at h
  · cases h
  next hparts =>
  split at h
  · cases h
  next hscheme =>
  split at h
  · cases h
  next hhost =>
  split at h
  · cases h
  next hport =>
  split at h
  · cases h
  next hlocal =>
  simp only [Bool.or_eq_true, Bool.and_eq_true, not_or, not_and, Bool.not_eq_true,
    Bool.not_eq_false', beq_eq_false_iff_ne, bne_iff_ne, not_not,
    List.contains_eq_mem, decide_eq_false_iff_not] at hparts hscheme hhost hport hlocal
  obtain ⟨⟨⟨⟨absolute, opaquePart⟩, host⟩, user⟩, fragment⟩ := hparts
  obtain ⟨⟨hostname, colon⟩, zone⟩ := hhost
  refine ⟨u, rfl, ?_, fun address haddress => ?_⟩
  · exact { absolute, user, fragment, opaquePart, host, hostname, zone, colon
            scheme := Decidable.or_iff_not_imp_left.mpr hscheme
            port := or_assoc.mp (Decidable.or_iff_not_imp_left.mpr fun h => hport (not_or.mp h))
            localhost := hlocal }
  · simp only [haddress] at h
    split at h
    · assumption
    · cases h

theorem allowed_of_public {address : Addr} (h : isPublicAddress address = true) :
    addressAllowed policy address = true := by
  have hunmap : isPublicAddress address.unmap = true := by
    cases address with
    | zero | v4 => exact h
    | v6 bits zone =>
    by_cases hmapped : leading bits (ipv6 [0, 0, 0, 0, 0, 0xffff]) 96
    · have hv4 : (Addr.v6 bits zone).unmap = .v4 (bits.setWidth 32) := by
        simp only [Addr.unmap, hmapped, if_true]
      rw [hv4]
      unfold isPublicAddress at h
      split at h
      · cases h
      · rw [hv4] at h
        exact h
    · have hsame : (Addr.v6 bits zone).unmap = .v6 bits zone := if_neg hmapped
      rw [hsame]
      exact h
  unfold addressAllowed
  rw [if_pos hunmap]

/-- Accepted, but not for its address alone. -/
def Conforms (L : Library) (policy : Policy) (raw : String) : Prop :=
  ∃ u, L.parse raw = some u ∧ Proper u ∧
    ∀ address, L.parseAddr u.hostname = some address → addressAllowed policy address = true

/-- The policy relaxes the rule about addresses only, if and only if no URL with an
allowed address breaks another rule. -/
theorem policy_relaxes_addresses_iff (L : Library) (raw : String) (policy : Policy) :
    (validateURLForPolicy L raw policy = none → Conforms L policy raw) ↔
      ∀ u address, L.parse raw = some u → L.parseAddr u.hostname = some address →
        addressAllowed policy address = true → Proper u := by
  constructor
  · intro h u address hparse haddress hallowed
    have haccepted : validateURLForPolicy L raw policy = none := by
      unfold validateURLForPolicy
      split
      · rfl
      · simp only [hparse, haddress, hallowed, if_true]
    obtain ⟨u', hparse', hproper, -⟩ := h haccepted
    cases hparse.symm.trans hparse'
    exact hproper
  · intro h haccepted
    unfold validateURLForPolicy at haccepted
    split at haccepted
    · next hvalid =>
      obtain ⟨u, hparse, hproper, hpublic⟩ := proper_of_valid hvalid
      exact ⟨u, hparse, hproper, fun address ha => allowed_of_public (hpublic address ha)⟩
    split at haccepted
    · cases haccepted
    next u hparse =>
    split at haccepted
    · cases haccepted
    next address haddress =>
    split at haccepted
    · next hallowed =>
      refine ⟨u, hparse, h u address hparse haddress hallowed, fun address' h' => ?_⟩
      cases haddress.symm.trans h'
      exact hallowed
    · cases haccepted

namespace Sample

/-- `url.Parse` and `netip.ParseAddr` at one URL. -/
def mailUrl : Url :=
  { text := "ftp://operator@93.184.216.34:25/", scheme := "ftp", rest := ""
    host := "93.184.216.34:25", hasUser := true, fragment := "", hostname := "93.184.216.34"
    port := "25" }

def library : Library :=
  { parse := fun text => if text = mailUrl.text then some mailUrl else none
    parseAddr := fun host =>
      if host = mailUrl.hostname then some (.v4 (ipv4 93 184 216 34)) else none
    fold := Char.toLower
    copies := fun _ _ _ => true }

end Sample

open Sample

/-- Scheme, user and port are wrong, but the host is a public address. -/
theorem mail_url_accepted : validateURL library mailUrl.text = some .errInvalidTarget ∧
      validateURLForPolicy library mailUrl.text ⟨[], 3⟩ = none ∧
      ¬ Conforms library ⟨[], 3⟩ mailUrl.text := by
  refine ⟨by decide, by decide, ?_⟩
  rintro ⟨u, hparse, hproper, -⟩
  cases hparse
  exact absurd hproper.user (by decide)

end WatchTrace.Proofs.Boundary
