import NetSim.Lib.Decimal
import NetSim.Proof.LongestPrefix
import NetSim.Spec.Firewall

/-!
# First match of the firewall

The text of a mask is right for every prefix length. A packet address is masked before it is compared, the address
of the line is not: a line with host bits matches nothing.

* `numToSubnet_eq`: the mask of a prefix length.
* `matchesAddress_iff`: what a prefix matches.
* `firewall_firstMatch`: when the decision is that of the first line that matches.
* `firewall_hostBits`: a line with host bits that does not deny.
-/

namespace NetSim.Firewall

open IpRouting PyText

variable {lib : FirewallLib} {d : Device} {packet : Packet} {type : AclType} {interfaceId : ℕ} {isMAC : Bool}

/-! ## Libraries -/

/-- The text of an IPv4 address. -/
def dotted (a b c d : UInt8) : Str :=
  Nat.toDigits 10 a.toNat ++ '.' :: (Nat.toDigits 10 b.toNat ++ '.' :: (Nat.toDigits 10 c.toNat ++ '.' ::
    Nat.toDigits 10 d.toNat))

/-- The word of an IPv4 address. -/
def address (a b c d : UInt8) : UInt32 :=
  UInt32.ofNat (a.toNat * 2 ^ 24 + b.toNat * 2 ^ 16 + c.toNat * 2 ^ 8 + d.toNat)

/-- The number of a binary text. -/
def binaryValue (s : Str) : ℕ := s.foldl (fun v c => 2 * v + if c = '1' then 1 else 0) 0

/-- What the libraries do with IPv4 addresses and binary texts. -/
structure FirewallLib.Documented (lib : FirewallLib) : Prop where
  network : ∀ ip mask, ip.type = 4 → mask.type = 4 → (lib.ipNetworkAddress ip mask 0).intIp = ip.intIp &&& mask.intIp
  type : ∀ ip mask, (lib.ipNetworkAddress ip mask 0).type = ip.type
  str : ∀ a b c d, ∃ ip, lib.strToIp (dotted a b c d) 4 = some ip ∧ ip.type = 4 ∧ ip.intIp = address a b c d
  binary : ∀ s, (∀ c ∈ s, c = '0' ∨ c = '1') → lib.binaryToDecimal s = binaryValue s

/-! ## Masks -/

theorem ones_binary (num : ℤ) : ∀ c ∈ ones num, c = '0' ∨ c = '1' := by
  intro c hc
  rcases List.mem_append.1 hc with hc | hc
  · exact .inr (List.eq_of_mem_replicate hc)
  · exact .inl (List.eq_of_mem_replicate hc)

/-- The text of a mask, with the value of the binary text. -/
theorem subnetText_congr {lib' : FirewallLib} (hlib : lib.Documented) (hlib' : ∀ s, lib'.binaryToDecimal s = binaryValue s)
    (left : ℕ) (num : ℤ) : subnetText lib left num = subnetText lib' left num := by
  induction left generalizing num with
  | zero => rfl
  | succ left ih =>
    unfold subnetText
    rw [ih, hlib.binary _ (ones_binary num), hlib']

/-- An octet of a mask. -/
def octet (k n : ℕ) : UInt8 := UInt8.ofNat ((prefixMask n).toNat / 2 ^ k)

/-- The libraries with nothing in them but the value of a binary text. -/
def plainLib : FirewallLib where
  ipNetworkAddress ip _ _ := ip
  strToIp _ _ := none
  strIp _ := []
  binIp _ := []
  findWord s := (none, s)
  binaryToDecimal := binaryValue
  isMulticastIP _ := false
  isBroadcastIP _ := false
  getFirstIPAddressAsId _ _ := ⟨4, 0, 0, 0, 0⟩

/-- The loop of `num_to_subnet` gives the text of the mask for each of the 33 prefix lengths. -/
theorem subnetText_plain : ∀ n : Fin 33,
    subnetText plainLib 4 (n : ℕ) = dotted (octet 24 n) (octet 16 n) (octet 8 n) (octet 0 n) ∧
      address (octet 24 n) (octet 16 n) (octet 8 n) (octet 0 n) = prefixMask n := by
  decide

/-- **The mask of a prefix length.** -/
theorem numToSubnet_eq (hlib : lib.Documented) {n : ℕ} (hn : n ≤ 32) :
    ∃ mask, numToSubnet lib n = some mask ∧ mask.type = 4 ∧ mask.intIp = prefixMask n := by
  obtain ⟨htext, hmask⟩ := subnetText_plain ⟨n, by omega⟩
  have hplain : subnetText lib 4 n = subnetText plainLib 4 n := subnetText_congr hlib (fun _ => rfl) 4 n
  unfold numToSubnet
  rw [hplain, htext]
  obtain ⟨mask, hsome, htype, hint⟩ := hlib.str (octet 24 n) (octet 16 n) (octet 8 n) (octet 0 n)
  exact ⟨mask, hsome, htype, hint.trans hmask⟩

/-! ## Prefixes -/

/-- Two addresses share their first `n` bits. -/
def SharesBits (n : ℕ) (x y : UInt32) : Prop := ∀ i < n, x.toNat.testBit (31 - i) = y.toNat.testBit (31 - i)

instance (n : ℕ) (x y : UInt32) : Decidable (SharesBits n x y) :=
  inferInstanceAs (Decidable (∀ i < n, _ = _))

/-- The bits of a mask. -/
theorem testBit_prefixMask : ∀ (n : Fin 33) (j : Fin 32),
    (prefixMask n).toNat.testBit j = decide (32 ≤ j + (n : ℕ)) := by
  decide

theorem eq_of_testBit {x y : UInt32} (h : ∀ j < 32, x.toNat.testBit j = y.toNat.testBit j) : x = y := by
  refine UInt32.toNat_inj.1 (Nat.eq_of_testBit_eq fun j => ?_)
  by_cases hj : j < 32
  · exact h j hj
  · have hx : x.toNat < 2 ^ j := lt_of_lt_of_le x.toNat_lt (Nat.pow_le_pow_right (by decide) (by omega))
    have hy : y.toNat < 2 ^ j := lt_of_lt_of_le y.toNat_lt (Nat.pow_le_pow_right (by decide) (by omega))
    rw [Nat.testBit_lt_two_pow hx, Nat.testBit_lt_two_pow hy]

theorem testBit_and_mask {n : ℕ} (hn : n ≤ 32) (x : UInt32) {j : ℕ} (hj : j < 32) :
    (x &&& prefixMask n).toNat.testBit j = (x.toNat.testBit j && decide (32 ≤ j + n)) := by
  rw [UInt32.toNat_and, Nat.testBit_and, testBit_prefixMask ⟨n, by omega⟩ ⟨j, hj⟩]

/-- Addresses with the same masked address share the bits of the prefix. -/
theorem and_mask_eq_iff {n : ℕ} (hn : n ≤ 32) (x y : UInt32) :
    x &&& prefixMask n = y &&& prefixMask n ↔ SharesBits n x y := by
  constructor
  · intro h i hi
    have hbit : (x &&& prefixMask n).toNat.testBit (31 - i) = (y &&& prefixMask n).toNat.testBit (31 - i) := by
      rw [h]
    rw [testBit_and_mask hn x (by omega), testBit_and_mask hn y (by omega),
      decide_eq_true (by omega : 32 ≤ 31 - i + n), Bool.and_true, Bool.and_true] at hbit
    exact hbit
  · intro h
    refine eq_of_testBit fun j hj => ?_
    rw [testBit_and_mask hn x hj, testBit_and_mask hn y hj]
    by_cases hin : 32 ≤ j + n
    · have hbit := h (31 - j) (by omega)
      have hback : 31 - (31 - j) = j := by omega
      rw [hback] at hbit
      rw [hbit]
    · rw [decide_eq_false hin, Bool.and_false, Bool.and_false]

/-- A source or a destination as it is written in a line: `any`, or a prefix. -/
inductive PrefixText
  | any (s : Str) (h : stricmp s "any".toList = true)
  | net (a b c d : UInt8) (n : ℕ) (h : n ≤ 32)

namespace PrefixText

def text : PrefixText → Str
  | any s _ => s
  | net a b c d n _ => dotted a b c d ++ '/' :: Nat.toDigits 10 n

/-- The addresses that share the bits of the prefix. -/
def Matches : PrefixText → StruIp → Prop
  | any _ _, _ => True
  | net a b c d n _, ip => ip.type = 4 ∧ SharesBits n ip.intIp (address a b c d)

/-- No bit of the address is behind the prefix. -/
def NoHostBits : PrefixText → Prop
  | any _ _ => True
  | net a b c d n _ => address a b c d &&& prefixMask n = address a b c d

instance (t : PrefixText) (ip : StruIp) : Decidable (t.Matches ip) :=
  match t with
  | any _ _ => isTrue trivial
  | net a b c d n _ => inferInstanceAs (Decidable (ip.type = 4 ∧ SharesBits n ip.intIp (address a b c d)))

instance (t : PrefixText) : Decidable t.NoHostBits :=
  match t with
  | any _ _ => isTrue trivial
  | net _ _ _ _ _ _ => inferInstanceAs (Decidable (_ = _))

end PrefixText

/-! ## Texts of prefixes -/

theorem dotted_number (a b c d : UInt8) : ∀ x ∈ dotted a b c d, isNumberChar x := by
  have hdigits : ∀ n x, x ∈ Nat.toDigits 10 n → isNumberChar x := fun n x hx => .inl (toDigits_isDigit n x hx)
  intro x hx
  unfold dotted at hx
  simp only [List.mem_append, List.mem_cons] at hx
  rcases hx with hx | rfl | hx | rfl | hx | rfl | hx
  · exact hdigits _ x hx
  · exact .inr (.inr rfl)
  · exact hdigits _ x hx
  · exact .inr (.inr rfl)
  · exact hdigits _ x hx
  · exact .inr (.inr rfl)
  · exact hdigits _ x hx

theorem atoi_toDigits (n : ℕ) : atoi (Nat.toDigits 10 n) = n := by
  have hdigits := toDigits_isDigit n
  have hspace : ∀ c ∈ (Nat.toDigits 10 n).head?, isSpace c = false := fun c hc =>
    isSpace_number (.inl (hdigits c (List.mem_of_mem_head? hc)))
  have hsign := takeSign_digit hdigits Nat.toDigits_ne_nil []
  rw [List.append_nil] at hsign
  unfold atoi
  rw [dropWhile_of_head hspace, hsign]
  dsimp only
  rw [List.takeWhile_eq_self_iff.2 hdigits, digitsValue_eq, Nat.ofDigitChars_ten_toDigits]
  rfl

/-- A text with a point is not `any`. -/
theorem stricmp_any {s : Str} (h : '.' ∈ s) : stricmp s "any".toList = false := by
  refine decide_eq_false fun heq => ?_
  have hmem : '.' ∈ s.map Char.toLower := List.mem_map.2 ⟨'.', h, by decide⟩
  rw [heq] at hmem
  exact absurd hmem (by decide)

theorem ipFromStr_net (a b c d : UInt8) (n : ℕ) (h : n ≤ 32) :
    ipFromStr lib (PrefixText.net a b c d n h).text =
      (lib.strToIp (dotted a b c d) 4).bind fun ip => (numToSubnet lib n).map fun subnet => (ip, subnet) := by
  have hpoint : '.' ∈ dotted a b c d := List.mem_append_right _ List.mem_cons_self
  have hslash : ∀ x ∈ dotted a b c d, decide (x ≠ '/') = true := by
    intro x hx
    refine decide_eq_true fun heq => ?_
    have hnumber := dotted_number a b c d x hx
    rw [heq] at hnumber
    rcases hnumber with hdigit | hminus | hdot
    · exact absurd hdigit (by decide)
    · exact absurd hminus (by decide)
    · exact absurd hdot (by decide)
  unfold ipFromStr PrefixText.text
  rw [stricmp_any (List.mem_append_left _ hpoint), if_neg Bool.false_ne_true]
  dsimp only
  rw [List.takeWhile_append_of_pos hslash, List.dropWhile_append_of_pos hslash,
    List.takeWhile_cons_of_neg (by decide), List.dropWhile_cons_of_neg (by decide), List.append_nil, List.tail_cons,
    atoi_toDigits]

theorem ipCompare_eq_zero {x y : StruIp} (h : x.type = 4) :
    ipCompare x y = 0 ↔ y.type = 4 ∧ x.intIp = y.intIp := by
  unfold ipCompare
  rw [if_pos h, h]
  by_cases htype : y.type = 4
  · rw [if_pos htype.symm]
    by_cases hint : x.intIp = y.intIp
    · rw [if_pos hint]
      exact iff_of_true rfl ⟨htype, hint⟩
    · rw [if_neg hint]
      exact iff_of_false (by decide) fun hand => hint hand.2
  · rw [if_neg fun heq => htype heq.symm]
    exact iff_of_false (by decide) fun hand => htype hand.1

/-- **What a prefix matches**: nothing if it has host bits, and otherwise the addresses that share its bits. -/
theorem matchesAddress_iff (hlib : lib.Documented) (t : PrefixText) (ip : StruIp) :
    matchesAddress lib (ipFromStr lib t.text) ip = true ↔ t.NoHostBits ∧ t.Matches ip := by
  cases t with
  | any s h =>
    have hnone : ipFromStr lib (PrefixText.any s h).text = none := if_pos h
    rw [hnone]
    exact iff_of_true rfl ⟨trivial, trivial⟩
  | net a b c d n h =>
    obtain ⟨source, hsource, htype, hint⟩ := hlib.str a b c d
    obtain ⟨mask, hsubnet, hmaskType, hmask⟩ := numToSubnet_eq hlib h
    have hcompare : matchesAddress lib (ipFromStr lib (PrefixText.net a b c d n h).text) ip = true ↔
        ip.type = 4 ∧ address a b c d = (lib.ipNetworkAddress ip mask 0).intIp := by
      rw [ipFromStr_net, hsource, hsubnet, Option.bind_some, Option.map_some]
      unfold matchesAddress
      rw [decide_eq_true_iff, ipCompare_eq_zero htype, hlib.type, hint]
    rw [hcompare]
    constructor
    · rintro ⟨hip, heq⟩
      rw [hlib.network ip _ hip hmaskType, hmask] at heq
      have hbits : address a b c d &&& prefixMask n = address a b c d := by
        rw [heq, UInt32.and_assoc, UInt32.and_self]
      exact ⟨hbits, hip, (and_mask_eq_iff h _ _).1 (heq.symm.trans hbits.symm)⟩
    · rintro ⟨hbits, hip, hshares⟩
      refine ⟨hip, ?_⟩
      rw [hlib.network ip _ hip hmaskType, hmask, (and_mask_eq_iff h _ _).2 hshares]
      exact hbits.symm

/-! ## Lines -/

/-- A line of a configuration. -/
structure Line where
  act : Str
  type : Str
  pro : Option Str
  src : PrefixText
  dest : PrefixText
  sport : Option Str
  dport : Option Str
  i : Option Str

namespace Line

def words (line : Line) : Words :=
  ⟨line.act, line.type, line.pro, line.src.text, line.dest.text, line.sport, line.dport, line.i⟩

/-- Neither prefix has host bits. -/
def NoHostBits (line : Line) : Prop := line.src.NoHostBits ∧ line.dest.NoHostBits

instance (line : Line) : Decidable line.NoHostBits := inferInstanceAs (Decidable (_ ∧ _))

/-- The line is for the layer, the interface and the direction. -/
def Applies (lib : FirewallLib) (d : Device) (interfaceId : ℕ) (type : AclType) (isMAC : Bool) (line : Line) : Prop :=
  let acl := aclAddNewLine lib d line.words
  (acl.isMacBlock = true → isMAC = true) ∧ (acl.nInterfaceId = 0 ∨ acl.nInterfaceId = interfaceId) ∧
    (acl.type = .both ∨ acl.type = type)

/-- Both prefixes, the ports and the protocol match. -/
def Matches (lib : FirewallLib) (d : Device) (packet : Packet) (line : Line) : Prop :=
  let acl := aclAddNewLine lib d line.words
  (line.src.Matches packet.szSourceIP ∧ line.dest.Matches (getDestIp lib packet)) ∧
    (acl.destPort = 0 ∨ acl.destPort = packet.dport) ∧ (acl.srcPort = 0 ∨ acl.srcPort = packet.sport) ∧
    (acl.protocol = .null ∨ acl.protocol = packet.ipProtocol)

instance (lib : FirewallLib) (d : Device) (interfaceId : ℕ) (type : AclType) (isMAC : Bool) (line : Line) :
    Decidable (line.Applies lib d interfaceId type isMAC) := inferInstanceAs (Decidable ((_ → _) ∧ (_ ∨ _) ∧ (_ ∨ _)))

instance (lib : FirewallLib) (d : Device) (packet : Packet) (line : Line) : Decidable (line.Matches lib d packet) :=
  inferInstanceAs (Decidable ((_ ∧ _) ∧ (_ ∨ _) ∧ (_ ∨ _) ∧ (_ ∨ _)))

end Line

/-- The action of the first line that applies and matches, and `PERMIT` if there is none. -/
def firstMatch (lib : FirewallLib) (d : Device) (interfaceId : ℕ) (packet : Packet) (type : AclType) (isMAC : Bool)
    (lines : List Line) : AclAction :=
  ((lines.find? fun line => line.Applies lib d interfaceId type isMAC ∧ line.Matches lib d packet).map
    fun line => actionFromStr line.act).getD .permit

theorem isMatched_iff (hlib : lib.Documented) (line : Line) :
    isMatched lib packet (aclAddNewLine lib d line.words) = true ↔ line.NoHostBits ∧ line.Matches lib d packet := by
  have hsrc := matchesAddress_iff hlib line.src packet.szSourceIP
  have hdest := matchesAddress_iff hlib line.dest (getDestIp lib packet)
  have hports : ∀ a b : UInt16, (decide (a = 0) || decide (a = b)) = true ↔ a = 0 ∨ a = b := by
    intro a b
    rw [Bool.or_eq_true, decide_eq_true_iff, decide_eq_true_iff]
  have hprotocol : ∀ a b : IpProtocol, (decide (a = .null) || decide (a = b)) = true ↔ a = .null ∨ a = b := by
    intro a b
    rw [Bool.or_eq_true, decide_eq_true_iff, decide_eq_true_iff]
  unfold isMatched
  rw [Bool.and_eq_true, Bool.and_eq_true, Bool.and_eq_true, Bool.and_eq_true, hports, hports, hprotocol]
  have hsource : (aclAddNewLine lib d line.words).source = ipFromStr lib line.src.text := rfl
  have htarget : (aclAddNewLine lib d line.words).dest = ipFromStr lib line.dest.text := rfl
  rw [hsource, htarget, hsrc, hdest]
  constructor
  · rintro ⟨⟨⟨⟨⟨h1, h2⟩, h3, h4⟩, h5⟩, h6⟩, h7⟩
    exact ⟨⟨h1, h3⟩, ⟨h2, h4⟩, h5, h6, h7⟩
  · rintro ⟨⟨h1, h3⟩, ⟨h2, h4⟩, h5, h6, h7⟩
    exact ⟨⟨⟨⟨⟨h1, h2⟩, h3, h4⟩, h5⟩, h6⟩, h7⟩

/-- The loop passes over a line that does not apply. -/
theorem searchAcl_cons (acl : Acl) (rest : List Acl) :
    searchAcl lib interfaceId packet type isMAC (acl :: rest) =
      if ((acl.isMacBlock = true → isMAC = true) ∧ (acl.nInterfaceId = 0 ∨ acl.nInterfaceId = interfaceId) ∧
        (acl.type = .both ∨ acl.type = type)) ∧ isMatched lib packet acl = true then acl.action
      else searchAcl lib interfaceId packet type isMAC rest := by
  rw [searchAcl]
  by_cases hlayer : (acl.isMacBlock && !isMAC) = true
  · rw [if_pos hlayer, if_neg]
    rintro ⟨⟨h, -⟩, -⟩
    obtain ⟨hblock, hmac⟩ := Bool.and_eq_true_iff.1 hlayer
    rw [h hblock] at hmac
    cases hmac
  · have happlies : acl.isMacBlock = true → isMAC = true := by
      intro hblock
      by_contra hmac
      rw [hblock, Bool.eq_false_of_not_eq_true hmac] at hlayer
      exact hlayer rfl
    rw [if_neg hlayer]
    by_cases hskip : (decide (acl.nInterfaceId ≠ 0) && decide (acl.nInterfaceId ≠ interfaceId) ||
        decide (acl.type ≠ .both) && decide (acl.type ≠ type)) = true
    · rw [if_pos hskip, if_neg]
      rintro ⟨⟨-, hinterface, htype⟩, -⟩
      rw [Bool.or_eq_true, Bool.and_eq_true, Bool.and_eq_true, decide_eq_true_iff, decide_eq_true_iff,
        decide_eq_true_iff, decide_eq_true_iff] at hskip
      rcases hskip with ⟨h1, h2⟩ | ⟨h1, h2⟩
      · exact hinterface.elim h1 h2
      · exact htype.elim h1 h2
    · have hgoes : (acl.nInterfaceId = 0 ∨ acl.nInterfaceId = interfaceId) ∧ (acl.type = .both ∨ acl.type = type) := by
        rw [Bool.or_eq_true, Bool.and_eq_true, Bool.and_eq_true, decide_eq_true_iff, decide_eq_true_iff,
          decide_eq_true_iff, decide_eq_true_iff, not_or, not_and_or, not_and_or, not_not, not_not, not_not,
          not_not] at hskip
        exact hskip
      rw [if_neg hskip]
      exact if_congr (and_iff_right ⟨happlies, hgoes⟩).symm rfl rfl

theorem firstMatch_cons (line : Line) (lines : List Line) :
    firstMatch lib d interfaceId packet type isMAC (line :: lines) =
      if line.Applies lib d interfaceId type isMAC ∧ line.Matches lib d packet then actionFromStr line.act
      else firstMatch lib d interfaceId packet type isMAC lines := by
  unfold firstMatch
  by_cases h : line.Applies lib d interfaceId type isMAC ∧ line.Matches lib d packet <;> simp [h]

/-- **The decision** is that of the first line without host bits that applies and matches. -/
theorem searchAcl_eq (hlib : lib.Documented) (lines : List Line) :
    searchAcl lib interfaceId packet type isMAC (lines.map fun line => aclAddNewLine lib d line.words) =
      firstMatch lib d interfaceId packet type isMAC (lines.filter fun line => line.NoHostBits) := by
  induction lines with
  | nil => rfl
  | cons line lines ih =>
    have hmatched : isMatched lib packet (aclAddNewLine lib d line.words) = true ↔ _ := isMatched_iff hlib line
    rw [List.map_cons, searchAcl_cons, ih]
    by_cases hbits : line.NoHostBits
    · have hfilter : (line :: lines).filter (fun line => line.NoHostBits) =
          line :: lines.filter fun line => line.NoHostBits := List.filter_cons_of_pos (decide_eq_true hbits)
      rw [hfilter, firstMatch_cons]
      by_cases hmatch : line.Applies lib d interfaceId type isMAC ∧ line.Matches lib d packet
      · rw [if_pos ⟨hmatch.1, hmatched.2 ⟨hbits, hmatch.2⟩⟩, if_pos hmatch]
        rfl
      · rw [if_neg fun h => hmatch ⟨h.1, (hmatched.1 h.2).2⟩, if_neg hmatch]
    · have hfilter : (line :: lines).filter (fun line => line.NoHostBits) =
          lines.filter fun line => line.NoHostBits :=
        List.filter_cons_of_neg (by rw [decide_eq_true_iff]; exact hbits)
      rw [hfilter, if_neg fun h => hbits (hmatched.1 h.2).1]

/-- **First match.** At both layers the decision is that of the first line that applies and matches exactly if it
stays the same without the lines that have host bits. A prefix matches exactly the addresses that share its bits
if and only if it has no host bits. -/
theorem firewall_firstMatch (hlib : lib.Documented) (hd : d.hasIpDevVar = true ∧ d.isFirewallConfigured = true)
    (lines : List Line) (interfaceId : ℕ) (packet : Packet) (type : AclType) :
    (macFirewall lib d (lines.map fun line => aclAddNewLine lib d line.words) interfaceId packet type =
        firstMatch lib d interfaceId packet type true lines ↔
      firstMatch lib d interfaceId packet type true (lines.filter fun line => line.NoHostBits) =
        firstMatch lib d interfaceId packet type true lines) ∧
    (networkFirewall lib d (lines.map fun line => aclAddNewLine lib d line.words) interfaceId packet type =
        firstMatch lib d interfaceId packet type false lines ↔
      firstMatch lib d interfaceId packet type false (lines.filter fun line => line.NoHostBits) =
        firstMatch lib d interfaceId packet type false lines) ∧
    ∀ t : PrefixText, (∀ ip, matchesAddress lib (ipFromStr lib t.text) ip = true ↔ t.Matches ip) ↔ t.NoHostBits := by
  have hdecision : ∀ isMAC, netSimFirewall lib d (lines.map fun line => aclAddNewLine lib d line.words) interfaceId
      packet type isMAC = firstMatch lib d interfaceId packet type isMAC (lines.filter fun line => line.NoHostBits) := by
    intro isMAC
    unfold netSimFirewall
    rw [hd.1, hd.2]
    exact searchAcl_eq hlib lines
  refine ⟨?_, ?_, fun t => ?_⟩
  · rw [macFirewall, hdecision]
  · rw [networkFirewall, hdecision]
  · constructor
    · intro h
      cases t with
      | any s hany => trivial
      | net a b c d n hn =>
        -- the address of the line itself shares all its bits
        have hself : (PrefixText.net a b c d n hn).Matches ⟨4, address a b c d, 0, 0, 0⟩ := ⟨rfl, fun _ _ => rfl⟩
        exact ((matchesAddress_iff hlib _ _).1 ((h _).2 hself)).1
    · intro hbits ip
      rw [matchesAddress_iff hlib]
      exact and_iff_right hbits

/-! ## Samples -/

/-- The numbers of the four octets of a text. -/
def octets (s : Str) : List ℕ := (split '.' s).map digitsValue

/-- Libraries that do what the documentation says. -/
def sampleLib : FirewallLib where
  ipNetworkAddress ip mask _ := { ip with intIp := ip.intIp &&& mask.intIp }
  strToIp s _ := some ⟨4, UInt32.ofNat ((octets s).foldl (fun v o => v * 2 ^ 8 + o) 0), 0, 0, 0⟩
  strIp ip := dotted (UInt8.ofNat (ip.intIp.toNat / 2 ^ 24)) (UInt8.ofNat (ip.intIp.toNat / 2 ^ 16))
    (UInt8.ofNat (ip.intIp.toNat / 2 ^ 8)) (UInt8.ofNat ip.intIp.toNat)
  binIp ip := (List.range 32).map fun i => if ip.intIp.toNat.testBit (31 - i) then '1' else '0'
  findWord s :=
    let s := s.dropWhile isSpace
    let word := s.takeWhile fun c => !isSpace c
    (if word = [] then none else some word, (s.dropWhile fun c => !isSpace c).tail)
  binaryToDecimal := binaryValue
  isMulticastIP _ := false
  isBroadcastIP _ := false
  getFirstIPAddressAsId id _ := ⟨4, UInt32.ofNat id, 0, 0, 0⟩

theorem octets_dotted (a b c d : UInt8) : octets (dotted a b c d) = [a.toNat, b.toNat, c.toNat, d.toNat] := by
  have hpoint : ∀ n, '.' ∉ Nat.toDigits 10 n := fun n hmem => absurd (toDigits_isDigit n _ hmem) (by decide)
  have hvalue : ∀ n, digitsValue (Nat.toDigits 10 n) = n := fun n => by
    rw [digitsValue_eq, Nat.ofDigitChars_ten_toDigits]
  unfold octets dotted
  rw [split_cons (hpoint _), split_cons (hpoint _), split_cons (hpoint _), split_of_not_mem (hpoint _), List.map_cons,
    List.map_cons, List.map_cons, List.map_singleton, hvalue, hvalue, hvalue, hvalue]

theorem documented_sample : sampleLib.Documented where
  network ip mask _ _ := rfl
  type ip mask := rfl
  str a b c d := by
    refine ⟨_, rfl, rfl, ?_⟩
    show UInt32.ofNat ((octets (dotted a b c d)).foldl (fun v o => v * 2 ^ 8 + o) 0) = _
    rw [octets_dotted, List.foldl_cons, List.foldl_cons, List.foldl_cons, List.foldl_cons, List.foldl_nil]
    refine congrArg UInt32.ofNat ?_
    omega
  binary s _ := rfl

/-- A device with two interfaces and an access list. -/
def sampleDevice : Device := ⟨2, fun i => ⟨4, UInt32.ofNat i, 0, 0, 0⟩, true, true⟩

/-- `DENY BOTH ANY` for a source, with `ANY` as destination. -/
def sampleLine (src : PrefixText) : Line :=
  ⟨"DENY".toList, "BOTH".toList, some "ANY".toList, src, .any "ANY".toList (by decide), none, none, none⟩

/-- A packet from 10.1.2.3. -/
def samplePacket : Packet := ⟨⟨4, address 10 1 2 3, 0, 0, 0⟩, ⟨4, 7, 0, 0, 0⟩, none, .udp, [7]⟩

/-- A line for 10.0.0.0/9 denies the packet. -/
theorem firewall_firstMatch_deny :
    networkFirewall sampleLib sampleDevice
      ([sampleLine (.net 10 0 0 0 9 (by decide))].map fun line => aclAddNewLine sampleLib sampleDevice line.words) 1
      samplePacket .inbound = .deny := by
  have hspec : firstMatch sampleLib sampleDevice 1 samplePacket .inbound false
      [sampleLine (.net 10 0 0 0 9 (by decide))] = .deny := by decide
  have hsame : firstMatch sampleLib sampleDevice 1 samplePacket .inbound false
      ([sampleLine (.net 10 0 0 0 9 (by decide))].filter fun line => line.NoHostBits) = .deny := by decide
  exact ((firewall_firstMatch documented_sample ⟨rfl, rfl⟩ _ 1 samplePacket .inbound).2.1.2
    (hsame.trans hspec.symm)).trans hspec

/-- A line for 10.1.2.0/9 has host bits, and lets the packet through. -/
theorem firewall_hostBits :
    ¬ ∀ (lines : List Line) interfaceId packet type,
      networkFirewall sampleLib sampleDevice (lines.map fun line => aclAddNewLine sampleLib sampleDevice line.words)
        interfaceId packet type = firstMatch sampleLib sampleDevice interfaceId packet type false lines := by
  intro hall
  have hdecision := hall [sampleLine (.net 10 1 2 0 9 (by decide))] 1 samplePacket .inbound
  revert hdecision
  decide

end NetSim.Firewall
