import NetSim.Proof.FirewallMatch

/-!
# Printing an access list and reading it back

Each printed line is eight words that are read back as they were written. Two fields are not written as they are
read: a protocol that `str_from_proto` does not know becomes `ANY`, and a missing address becomes `ANY/0`, which
is no `ANY` to the parser.

* `findWords_print`: the words of a printed line.
* `reread_eq_iff`: which rules come back.
* `print_read_iff`: which access lists come back.
-/

namespace NetSim.Firewall

open IpRouting PyText

variable {lib : FirewallLib} {d : Device}

/-! ## Libraries -/

/-- What the libraries do with the text and the bits of an IPv4 address, and with the words of a line. -/
structure FirewallLib.Prints (lib : FirewallLib) : Prop where
  strIp : ∀ a b c d ip, lib.strToIp (dotted a b c d) 4 = some ip → lib.strIp ip = dotted a b c d
  binIp : ∀ ip, ip.type = 4 →
    lib.binIp ip = (List.range 32).map fun i => if ip.intIp.toNat.testBit (31 - i) then '1' else '0'
  findWord : ∀ word c rest, word ≠ [] → (∀ x ∈ word, isSpace x = false) → isSpace c = true →
    lib.findWord (word ++ c :: rest) = (some word, rest)

/-- The rule is written as it is read: its protocol is one that is written, and if an address is missing, the
text `ANY` is no address. -/
def Acl.IsWritten (lib : FirewallLib) (acl : Acl) : Prop :=
  (acl.protocol = .null ∨ acl.protocol = .tcp ∨ acl.protocol = .udp) ∧
    (acl.source = none ∨ acl.dest = none → lib.strToIp "ANY".toList 4 = none)

instance (lib : FirewallLib) (acl : Acl) : Decidable (acl.IsWritten lib) :=
  inferInstanceAs (Decidable ((_ ∨ _ ∨ _) ∧ (_ → _)))

/-! ## Words -/

/-- A text without blanks. -/
def IsWord (s : Str) : Prop := s ≠ [] ∧ ∀ c ∈ s, isSpace c = false

theorem isWord_number {s : Str} (hne : s ≠ []) (h : ∀ c ∈ s, isNumberChar c) : IsWord s :=
  ⟨hne, fun c hc => isSpace_number (h c hc)⟩

theorem isWord_decimal (z : ℤ) : IsWord (decimal z) := by
  refine isWord_number (fun hnil => ?_) (decimal_number z)
  exact Nat.toDigits_ne_nil (List.append_eq_nil_iff.1 hnil).2

theorem isWord_slash {s : Str} (hs : ∀ c ∈ s, isSpace c = false) (n : ℕ) : IsWord (s ++ '/' :: Nat.toDigits 10 n) := by
  refine ⟨List.append_ne_nil_of_right_ne_nil s (List.cons_ne_nil _ _), fun c hc => ?_⟩
  rcases List.mem_append.1 hc with hc | hc
  · exact hs c hc
  · rcases List.mem_cons.1 hc with rfl | hc
    · decide
    · exact isSpace_number (.inl (toDigits_isDigit n c hc))

/-- The words of the line that is printed. -/
def printedWords (lib : FirewallLib) (acl : Acl) : Words where
  act := actionText acl.action
  type := typeText acl.type
  pro := some (strFromProto acl.protocol)
  src := addressText lib acl.source
  dest := addressText lib acl.dest
  sport := some (decimal acl.srcPort.toNat)
  dport := some (decimal acl.destPort.toNat)
  i := some (decimal (Word.int32 acl.nInterfaceId))

theorem isWord_of_all {s : Str} (h : (!s.isEmpty && s.all fun c => !isSpace c) = true) : IsWord s := by
  obtain ⟨hne, hall⟩ := Bool.and_eq_true_iff.1 h
  refine ⟨fun hnil => ?_, fun c hc => ?_⟩
  · rw [hnil] at hne
    cases hne
  · have hc := List.all_eq_true.1 hall c hc
    rwa [Bool.not_eq_true'] at hc

theorem isWord_action (action : AclAction) : IsWord (actionText action) := by
  apply isWord_of_all
  cases action <;> rfl

theorem isWord_type (type : AclType) : IsWord (typeText type) := by
  apply isWord_of_all
  cases type <;> rfl

theorem isWord_proto (protocol : IpProtocol) : IsWord (strFromProto protocol) := by
  apply isWord_of_all
  cases protocol <;> rfl

theorem callFindWord_append (hprint : lib.Prints) {word : Str} (h : IsWord word) {c : Char} (hc : isSpace c = true)
    (calls : ℕ) (rest : Str) : callFindWord lib (calls + 1) (word ++ c :: rest) = some word :: callFindWord lib calls rest := by
  rw [callFindWord, hprint.findWord word c rest h.1 h.2 hc]

/-- **The words of a printed line.** -/
theorem findWords_print (hprint : lib.Prints) {acl : Acl} (hsrc : IsWord (addressText lib acl.source))
    (hdest : IsWord (addressText lib acl.dest)) : findWords lib (aclPrintLine lib acl) = some (printedWords lib acl) := by
  have hblank : isSpace ' ' = true := by decide
  unfold findWords aclPrintLine
  rw [callFindWord_append hprint (isWord_action _) hblank, callFindWord_append hprint (isWord_type _) hblank,
    callFindWord_append hprint (isWord_proto _) hblank, callFindWord_append hprint hsrc hblank,
    callFindWord_append hprint hdest hblank, callFindWord_append hprint (isWord_decimal _) hblank,
    callFindWord_append hprint (isWord_decimal _) hblank, callFindWord_append hprint (isWord_decimal _) (by decide)]
  rfl

/-! ## Lines -/

/-- `fgets` stops behind the first end of a line. -/
theorem fgetsLines_append {l : Str} (h : '\n' ∉ l) (rest : Str) :
    fgetsLines (l ++ '\n' :: rest) = (l ++ ['\n']) :: fgetsLines rest := by
  induction l with
  | nil => rfl
  | cons c l ih =>
    obtain ⟨hc, hl⟩ := not_or.1 (mt List.mem_cons.2 h)
    rw [List.cons_append, fgetsLines, ih hl]
    · rfl
    · exact fun heq => hc heq.symm

theorem IsWord.no_newline {s : Str} (h : IsWord s) : '\n' ∉ s := fun hmem => absurd (h.2 '\n' hmem) (by decide)

/-- A printed line has one end, at its end. -/
theorem aclPrintLine_eq {acl : Acl} (hsrc : IsWord (addressText lib acl.source)) (hdest : IsWord (addressText lib acl.dest)) :
    ∃ l, '\n' ∉ l ∧ aclPrintLine lib acl = l ++ ['\n'] := by
  have hcons : ∀ {word l : Str}, IsWord word → '\n' ∉ l → '\n' ∉ word ++ ' ' :: l := by
    intro word l hword hl hmem
    rcases List.mem_append.1 hmem with hmem | hmem
    · exact hword.no_newline hmem
    · rcases List.mem_cons.1 hmem with heq | hmem
      · exact absurd heq (by decide)
      · exact hl hmem
  have hline := hcons (isWord_action acl.action) (hcons (isWord_type acl.type) (hcons (isWord_proto acl.protocol) (hcons hsrc (hcons hdest
    (hcons (isWord_decimal acl.srcPort.toNat) (hcons (isWord_decimal acl.destPort.toNat)
      (isWord_decimal (Word.int32 acl.nInterfaceId)).no_newline))))))
  refine ⟨_, hline, ?_⟩
  unfold aclPrintLine
  simp only [List.append_assoc, List.cons_append]

/-! ## Fields -/

theorem atoi_decimal (z : ℤ) : atoi (decimal z) = z := by
  unfold decimal
  by_cases hz : z < 0
  · have hdigits := toDigits_isDigit z.natAbs
    rw [if_pos hz, List.singleton_append]
    unfold atoi
    rw [dropWhile_of_head (fun c hc => by rw [← Option.some.inj hc]; decide), takeSign]
    dsimp only
    rw [List.takeWhile_eq_self_iff.2 hdigits, digitsValue_eq, Nat.ofDigitChars_ten_toDigits]
    rw [if_pos rfl]
    omega
  · rw [if_neg hz, List.nil_append, atoi_toDigits]
    omega

/-- The mask of a prefix length, as it is printed. -/
theorem leading_ones : ∀ n : Fin 33, (((List.range 32).map fun i =>
    if (prefixMask n).toNat.testBit (31 - i) then '1' else '0').takeWhile (· = '1')).length = n := by
  decide

theorem perfixFromMask_eq (hprint : lib.Prints) {mask : StruIp} {n : ℕ} (hn : n ≤ 32) (htype : mask.type = 4)
    (hmask : mask.intIp = prefixMask n) : perfixFromMask lib mask = n := by
  unfold perfixFromMask
  rw [hprint.binIp mask htype, hmask]
  exact leading_ones ⟨n, by omega⟩

/-- The text of a source or a destination: `ANY/0`, or as it was written. -/
theorem addressText_eq (hlib : lib.Documented) (hprint : lib.Prints) (t : PrefixText) :
    ipFromStr lib t.text = none ∧ addressText lib (ipFromStr lib t.text) = "ANY".toList ++ '/' :: Nat.toDigits 10 0 ∨
      ipFromStr lib t.text ≠ none ∧ (∃ a b c d n h, t = .net a b c d n h) ∧ addressText lib (ipFromStr lib t.text) = t.text := by
  cases t with
  | any s h =>
    have hnone : ipFromStr lib (PrefixText.any s h).text = none := if_pos h
    rw [hnone]
    exact .inl ⟨rfl, rfl⟩
  | net a b c d n h =>
    obtain ⟨source, hsource, -, -⟩ := hlib.str a b c d
    obtain ⟨mask, hsubnet, hmaskType, hmask⟩ := numToSubnet_eq hlib h
    have hsome : ipFromStr lib (PrefixText.net a b c d n h).text = some (source, mask) := by
      rw [ipFromStr_net, hsource, hsubnet]
      rfl
    rw [hsome]
    refine .inr ⟨nofun, ⟨a, b, c, d, n, h, rfl⟩, ?_⟩
    unfold addressText PrefixText.text
    dsimp only
    rw [hprint.strIp a b c d source hsource, perfixFromMask_eq hprint h hmaskType hmask]

theorem isWord_addressText (hlib : lib.Documented) (hprint : lib.Prints) (t : PrefixText) :
    IsWord (addressText lib (ipFromStr lib t.text)) := by
  rcases addressText_eq hlib hprint t with ⟨-, htext⟩ | ⟨-, ⟨a, b, c, d, n, h, rfl⟩, htext⟩
  · rw [htext]
    exact isWord_slash (isWord_of_all rfl).2 0
  · rw [htext]
    exact isWord_slash (fun x hx => isSpace_number (dotted_number a b c d x hx)) n

/-- **Which addresses come back.** -/
theorem address_reread (hlib : lib.Documented) (hprint : lib.Prints) (t : PrefixText) :
    ipFromStr lib (addressText lib (ipFromStr lib t.text)) = ipFromStr lib t.text ↔
      (ipFromStr lib t.text = none → lib.strToIp "ANY".toList 4 = none) := by
  rcases addressText_eq hlib hprint t with ⟨hnone, htext⟩ | ⟨hsome, -, htext⟩
  · obtain ⟨mask, hmask, -⟩ := numToSubnet_eq hlib (Nat.zero_le 32)
    have hread : ipFromStr lib ("ANY".toList ++ '/' :: Nat.toDigits 10 0) =
        (lib.strToIp "ANY".toList 4).bind fun ip => (numToSubnet lib (0 : ℕ)).map fun subnet => (ip, subnet) := rfl
    rw [htext, hread, hnone, hmask]
    cases lib.strToIp "ANY".toList 4 with
    | none => exact iff_of_true rfl fun _ => rfl
    | some ip => exact iff_of_false nofun fun h => nomatch h rfl
  · rw [htext]
    exact iff_of_true rfl fun hnone => absurd hnone hsome

/-! ## Rules -/

/-- What comes back of a rule. -/
def reread (lib : FirewallLib) (d : Device) (acl : Acl) : Acl := aclAddNewLine lib d (printedWords lib acl)

theorem interface_reread {n : ℕ} (hn : n < 2 ^ 32) : (atoi (decimal (Word.int32 n)) % 2 ^ 32).toNat = n := by
  rw [atoi_decimal]
  unfold Word.int32
  split <;> omega

theorem port_reread (port : UInt16) : UInt16.ofInt (atoi (decimal port.toNat)) = port := by
  have hlt := port.toNat_lt
  have hmod : ((port.toNat : ℤ) % 2 ^ 16).toNat = port.toNat := by omega
  rw [atoi_decimal, UInt16.ofInt, hmod]
  exact UInt16.ofNat_toNat

/-- The fields that come back as they were, and the three that may not. -/
theorem reread_eq (line : Line) : reread lib d (aclAddNewLine lib d line.words) =
    { aclAddNewLine lib d line.words with
      protocol := ipprotocolFromStr (strFromProto (aclAddNewLine lib d line.words).protocol)
      source := ipFromStr lib (addressText lib (aclAddNewLine lib d line.words).source)
      dest := ipFromStr lib (addressText lib (aclAddNewLine lib d line.words).dest) } := by
  have hinterface : (aclAddNewLine lib d line.words).nInterfaceId < 2 ^ 32 := by
    unfold aclAddNewLine
    dsimp only
    cases line.words.i with
    | none => decide
    | some i =>
      have hlt := Int.emod_lt_of_pos (atoi i) (show (0 : ℤ) < 2 ^ 32 by decide)
      have hge := Int.emod_nonneg (atoi i) (show (2 : ℤ) ^ 32 ≠ 0 by decide)
      simp only [Option.map_some, Option.getD_some]
      omega
  have hblock : (aclAddNewLine lib d line.words).isMacBlock =
      (decide ((aclAddNewLine lib d line.words).nInterfaceId ≠ 0) &&
        checkMacBlock d (aclAddNewLine lib d line.words).nInterfaceId) := rfl
  generalize aclAddNewLine lib d line.words = acl at hinterface hblock
  have haction : actionFromStr (actionText acl.action) = acl.action := by
    cases acl.action <;> rfl
  have htype : typeFromStr (typeText acl.type) = acl.type := by
    cases acl.type <;> rfl
  unfold reread aclAddNewLine printedWords
  simp only [Option.map_some, Option.getD_some, interface_reread hinterface, port_reread, haction, htype, ← hblock]

theorem protocol_reread (protocol : IpProtocol) : ipprotocolFromStr (strFromProto protocol) = protocol ↔
    protocol = .null ∨ protocol = .tcp ∨ protocol = .udp := by
  cases protocol <;> decide

/-- **Which rules come back.** -/
theorem reread_eq_iff (hlib : lib.Documented) (hprint : lib.Prints) (line : Line) :
    reread lib d (aclAddNewLine lib d line.words) = aclAddNewLine lib d line.words ↔
      (aclAddNewLine lib d line.words).IsWritten lib := by
  have hsrc : (aclAddNewLine lib d line.words).source = ipFromStr lib line.src.text := rfl
  have hdest : (aclAddNewLine lib d line.words).dest = ipFromStr lib line.dest.text := rfl
  have hsource := address_reread hlib hprint line.src
  have htarget := address_reread hlib hprint line.dest
  rw [reread_eq]
  rw [← hsrc] at hsource
  rw [← hdest] at htarget
  generalize aclAddNewLine lib d line.words = acl at *
  unfold Acl.IsWritten
  rw [← protocol_reread, or_imp, ← hsource, ← htarget]
  constructor
  · intro h
    exact ⟨congrArg Acl.protocol h, congrArg Acl.source h, congrArg Acl.dest h⟩
  · rintro ⟨h1, h2, h3⟩
    rw [h1, h2, h3]

/-! ## Access lists -/

/-- What comes back of an access list. -/
theorem readAcl_print (hlib : lib.Documented) (hprint : lib.Prints) (lines : List Line) :
    readAcl lib d (aclPrint lib (lines.map fun line => aclAddNewLine lib d line.words)) =
      some ((lines.map fun line => aclAddNewLine lib d line.words).map (reread lib d)) := by
  induction lines with
  | nil => rfl
  | cons line lines ih =>
    have hsrc : IsWord (addressText lib (aclAddNewLine lib d line.words).source) := isWord_addressText hlib hprint line.src
    have hdest : IsWord (addressText lib (aclAddNewLine lib d line.words).dest) := isWord_addressText hlib hprint line.dest
    obtain ⟨l, hl, hline⟩ := aclPrintLine_eq hsrc hdest
    have hwords := findWords_print hprint hsrc hdest
    unfold readAcl aclPrint at ih ⊢
    rw [List.map_cons, List.map_cons, List.flatten_cons, hline, List.append_assoc, List.singleton_append,
      fgetsLines_append hl, ← hline, List.mapM_cons, hwords, ih]
    rfl

/-- **An access list comes back with the same rules in the same order** if and only if each rule is written as it
is read. -/
theorem print_read_iff (hlib : lib.Documented) (hprint : lib.Prints) (lines : List Line) :
    readAcl lib d (aclPrint lib (lines.map fun line => aclAddNewLine lib d line.words)) =
        some (lines.map fun line => aclAddNewLine lib d line.words) ↔
      ∀ line ∈ lines, (aclAddNewLine lib d line.words).IsWritten lib := by
  rw [readAcl_print hlib hprint, Option.some.injEq, List.map_map, List.map_inj_left]
  exact forall₂_congr fun line _ => reread_eq_iff hlib hprint line

/-! ## Samples -/

theorem octet_address (a b c d : UInt8) : UInt8.ofNat ((address a b c d).toNat / 2 ^ 24) = a ∧
    UInt8.ofNat ((address a b c d).toNat / 2 ^ 16) = b ∧ UInt8.ofNat ((address a b c d).toNat / 2 ^ 8) = c ∧
      UInt8.ofNat (address a b c d).toNat = d := by
  have ha := a.toNat_lt
  have hb := b.toNat_lt
  have hc := c.toNat_lt
  have hd := d.toNat_lt
  have hvalue : (address a b c d).toNat = a.toNat * 2 ^ 24 + b.toNat * 2 ^ 16 + c.toNat * 2 ^ 8 + d.toNat := by
    exact UInt32.toNat_ofNat_of_lt' (by omega : a.toNat * 2 ^ 24 + b.toNat * 2 ^ 16 + c.toNat * 2 ^ 8 + d.toNat < 2 ^ 32)
  have heq : ∀ (x : UInt8) (n : ℕ), n % 2 ^ 8 = x.toNat → UInt8.ofNat n = x := by
    intro x n hn
    exact UInt8.toNat_inj.1 ((UInt8.toNat_ofNat' ..).trans hn)
  rw [hvalue]
  exact ⟨heq a _ (by omega), heq b _ (by omega), heq c _ (by omega), heq d _ (by omega)⟩

theorem prints_sample : sampleLib.Prints where
  strIp a b c d ip h := by
    obtain ⟨ip', hip', -, hint⟩ := documented_sample.str a b c d
    obtain rfl := Option.some.inj (hip'.symm.trans h)
    obtain ⟨ha, hb, hc, hd⟩ := octet_address a b c d
    show dotted _ _ _ _ = _
    rw [hint, ha, hb, hc, hd]
  binIp _ _ := rfl
  findWord word c rest hne hword hc := by
    have hhead : ∀ x ∈ (word ++ c :: rest).head?, isSpace x = false := by
      intro x hx
      rw [List.head?_append_of_ne_nil _ hne] at hx
      exact hword x (List.mem_of_mem_head? hx)
    have hkeep : ∀ x ∈ word, (!isSpace x) = true := fun x hx => by rw [hword x hx]; rfl
    have htake : (c :: rest).takeWhile (fun c => !isSpace c) = [] := by
      rw [List.takeWhile, hc]
      rfl
    have hdrop : (c :: rest).dropWhile (fun c => !isSpace c) = c :: rest := by
      rw [List.dropWhile, hc]
      rfl
    show (if ((word ++ c :: rest).dropWhile isSpace).takeWhile (fun c => !isSpace c) = [] then _ else _, _) = _
    rw [dropWhile_of_head hhead, List.takeWhile_append_of_pos hkeep, List.dropWhile_append_of_pos hkeep, htake, hdrop,
      List.append_nil, if_neg hne, List.tail_cons]

/-- A line from 10.0.0.0/8 to 10.0.0.0/8, for a protocol. -/
def prefixLine (act pro : Str) : Line :=
  ⟨act, "BOTH".toList, some pro, .net 10 0 0 0 8 (by decide), .net 10 0 0 0 8 (by decide), some "0".toList, some "80".toList,
    some "1".toList⟩

/-- A rule for TCP comes back. -/
theorem print_read_tcp : readAcl sampleLib sampleDevice (aclPrint sampleLib
      ([prefixLine "PERMIT".toList "TCP".toList].map fun line => aclAddNewLine sampleLib sampleDevice line.words)) =
    some ([prefixLine "PERMIT".toList "TCP".toList].map fun line => aclAddNewLine sampleLib sampleDevice line.words) :=
  (print_read_iff documented_sample prints_sample _).2 (by decide)

/-- A rule that denies ICMP comes back as one that denies everything. -/
theorem icmp_widened : ∃ acls, readAcl sampleLib sampleDevice (aclPrint sampleLib
      [aclAddNewLine sampleLib sampleDevice (prefixLine "DENY".toList "ICMP".toList).words]) = some acls ∧
    networkFirewall sampleLib sampleDevice acls 1
      ⟨⟨4, address 10 1 2 3, 0, 0, 0⟩, ⟨4, address 10 0 0 7, 0, 0, 0⟩, some (5, 80), .udp, [5, 6]⟩ .inbound = .deny ∧
    networkFirewall sampleLib sampleDevice
      [aclAddNewLine sampleLib sampleDevice (prefixLine "DENY".toList "ICMP".toList).words] 1
      ⟨⟨4, address 10 1 2 3, 0, 0, 0⟩, ⟨4, address 10 0 0 7, 0, 0, 0⟩, some (5, 80), .udp, [5, 6]⟩ .inbound = .permit := by
  refine ⟨[reread sampleLib sampleDevice (aclAddNewLine sampleLib sampleDevice (prefixLine "DENY".toList "ICMP".toList).words)],
    ?_, by decide, by decide⟩
  exact readAcl_print documented_sample prints_sample [prefixLine "DENY".toList "ICMP".toList]

end NetSim.Firewall
