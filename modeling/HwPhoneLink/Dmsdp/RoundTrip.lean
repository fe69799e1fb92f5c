import HwPhoneLink.Dmsdp.Values

/-!
# Reading back what is built

`dmsdp_parse` on the text of `dmsdp_build`. Header by header, the parser takes up the values of
the message.
-/

namespace HwPhoneLink.Dmsdp

open BigEndian Path HwPhoneLink.Testfile

/-! ## The text -/

/-- `flags1` of the message has the flag. -/
def DmsdpMsg.has (msg : DmsdpMsg) (flag : UInt32) : Bool := decide (msg.flags1 &&& flag ≠ 0)

def DmsdpMsg.has2 (msg : DmsdpMsg) (flag : UInt32) : Bool := decide (msg.flags2 &&& flag ≠ 0)

/-- A string that comes through: no CR, LF or NUL, and no space in front. -/
structure PlainValue (s : Bytes) : Prop where
  no_cr : (13 : UInt8) ∉ s
  no_lf : (10 : UInt8) ∉ s
  no_nul : (0 : UInt8) ∉ s
  no_space : s.head? ≠ some 32

/-- A flag that was not set comes and goes. -/
theorem or_flag_clear {x f : UInt32} (h : x &&& f = 0) : (x ||| f) &&& ~~~f = x := by
  rw [← UInt32.toBitVec_inj] at h ⊢
  simp only [UInt32.toBitVec_and, UInt32.toBitVec_or, UInt32.toBitVec_not] at h ⊢
  refine BitVec.eq_of_getLsbD_eq fun i hi => ?_
  have hbit := congrArg (fun v : BitVec 32 => v.getLsbD i) h
  simp only [BitVec.getLsbD_and, BitVec.getLsbD_or, BitVec.getLsbD_not, hi] at hbit ⊢
  cases hx : x.toBitVec.getLsbD i with
  | false => cases hf : f.toBitVec.getLsbD i <;> rfl
  | true =>
      cases hf : f.toBitVec.getLsbD i with
      | false => rfl
      | true =>
          rw [hx, hf] at hbit
          simp at hbit

/-- The emissions are a start line and header lines that lead from `out₀` to `out`. -/
def Reads (ls : List (Option Bytes)) (start : Bytes) (out₀ out : DmsdpParsed) : Prop :=
  (∀ l ∈ ls, l ≠ none) → ∃ bodies : List Bytes,
    ls = some (start ++ crlf) :: bodies.map (fun l => some (l ++ crlf)) ∧
    (∀ l ∈ bodies, l ≠ [] ∧ (13 : UInt8) ∉ l) ∧
    bodies.foldlM (fun out l => dmsdpAnalyzeLine l out) out₀ = .ok out

section

variable {ls : List (Option Bytes)} {start : Bytes} {out₀ out out' : DmsdpParsed} {b : Bool}

theorem Reads.first (out : DmsdpParsed) : Reads [some (start ++ crlf)] start out out :=
  fun _ => ⟨[], rfl, List.forall_mem_nil _, rfl⟩

/-- One more line, or none. -/
theorem Reads.emit (h : Reads ls start out₀ out) {line : Option Bytes}
    (hon : b = true → ∀ l, line = some l → ∃ body, l = body ++ crlf ∧ body ≠ [] ∧
      (13 : UInt8) ∉ body ∧ dmsdpAnalyzeLine body out = .ok out')
    (hoff : b = false → out' = out) : Reads (ls ++ emitIf b line) start out₀ out' := by
  intro hall
  obtain ⟨bodies, hls, hbodies, hfold⟩ := h fun l hl => hall l (List.mem_append_left _ hl)
  cases b with
  | false =>
      rw [hoff rfl]
      exact ⟨bodies, by rw [hls]; exact List.append_nil _, hbodies, hfold⟩
  | true =>
      have hmem : line ∈ ls ++ emitIf true line :=
        List.mem_append_right _ (List.mem_singleton.mpr rfl)
      obtain ⟨l, hl⟩ := Option.ne_none_iff_exists'.mp (hall line hmem)
      obtain ⟨body, rfl, hne, hcr, hanalyze⟩ := hon rfl l hl
      refine ⟨bodies ++ [body], ?_, ?_, ?_⟩
      · rw [hls, hl, List.map_append]
        rfl
      · intro l hmem
        rcases List.mem_append.mp hmem with hmem | hmem
        · exact hbodies l hmem
        · rw [List.mem_singleton.mp hmem]
          exact ⟨hne, hcr⟩
      · rw [List.foldlM_append, hfold]
        show ([body].foldlM (fun out l => dmsdpAnalyzeLine l out) out) = _
        rw [List.foldlM_cons, hanalyze]
        rfl

/-- A header line. -/
theorem Reads.header (h : Reads ls start out₀ out) {idx : DmsdpName} {name : String}
    (value : Option Bytes) (hname : (idx, ascii name) ∈ dmsdpNames)
    (hcr : ∀ v ∈ value, (13 : UInt8) ∉ v)
    (hon : b = true → ∀ v ∈ value, dmsdpAnalyzeLine (ascii name ++ ascii ": " ++ v) out = .ok out')
    (hoff : b = false → out' = out) :
    Reads (ls ++ emitIf b (value.map (headerLine name))) start out₀ out' := by
  refine h.emit (fun hb l hl => ?_) hoff
  obtain ⟨v, hv, rfl⟩ := Option.map_eq_some_iff.mp hl
  obtain ⟨hne, -, hplain⟩ := dmsdpNames_plain _ hname
  refine ⟨ascii name ++ ascii ": " ++ v, rfl, ?_, ?_, hon hb v hv⟩
  · simp only [List.append_assoc]
    exact List.append_ne_nil_of_left_ne_nil hne _
  · rw [List.mem_append, List.mem_append]
    rintro ((hmem | hmem) | hmem)
    · exact hplain hmem
    · revert hmem
      decide
    · exact hcr v hv hmem

/-- A number under its name. -/
theorem Reads.unsigned (h : Reads ls start out₀ out) (idx : DmsdpName) {name : String} {n : ℕ}
    {set : UInt32 → DmsdpParsed} (hname : (idx, ascii name) ∈ dmsdpNames)
    (hspecial : idx.special = false)
    (hset : dmsdpAnalyzeInteger idx (32 :: decimal n) (flagged idx out) =
      dmsdpInteger (32 :: decimal n) set)
    (hn : n < 2 ^ 31) (hon : b = true → set (UInt32.ofNat n) = out')
    (hoff : b = false → out' = out) :
    Reads (ls ++ emitIf b (unsignedLine name n)) start out₀ out' := by
  refine h.header (some (decimal n)) hname ?_ (fun hb v hv => ?_) hoff
  · intro v hv
    rw [← Option.some.inj hv]
    exact not_mem_decimal (by decide) n
  · rw [← Option.some.inj hv]
    apply dmsdpAnalyzeLine_value hname
    rw [dmsdpAnalyzeValue, hspecial, if_neg Bool.false_ne_true, hset, dmsdpInteger,
      dmsdpParseInteger_decimal hn, ← hon hb]
    rfl

/-- A number that the parser passes over. -/
theorem Reads.ignored (h : Reads ls start out₀ out) (idx : DmsdpName) {name : String} {n : ℕ}
    (hname : (idx, ascii name) ∈ dmsdpNames)
    (hignored : ∀ v out, dmsdpAnalyzeValue idx v out = .error (-10)) (hflag2 : idx.flag2 = 0)
    (hflag1 : out.flags1 &&& idx.flag1 = 0) :
    Reads (ls ++ emitIf b (unsignedLine name n)) start out₀ out := by
  refine h.header (some (decimal n)) hname ?_ (fun _ v _ => ?_) fun _ => rfl
  · intro v hv
    rw [← Option.some.inj hv]
    exact not_mem_decimal (by decide) n
  · rw [dmsdpAnalyzeLine_eq hname, hignored]
    simp only [if_true, flagged, hflag2, or_flag_clear hflag1, or_flag_clear UInt32.and_zero]

/-- The space after the colon. -/
theorem dropWhile_space {v : Bytes} (h : v.head? ≠ some 32) :
    (32 :: v).dropWhile (fun b => decide (b = 32)) = v := by
  rw [List.dropWhile_cons_of_pos (by decide)]
  cases v with
  | nil => rfl
  | cons c v =>
      rw [List.dropWhile_cons_of_neg]
      rw [decide_eq_true_eq]
      rintro rfl
      exact h rfl

/-- A string under its name. -/
theorem Reads.string (h : Reads ls start out₀ out) (idx : DmsdpName) {name : String}
    {s : Option Bytes} (hname : (idx, ascii name) ∈ dmsdpNames) (hs : ∀ v ∈ s, PlainValue v)
    (hon : b = true → ∀ v ∈ s, dmsdpAnalyzeString idx v (flagged idx out) = .ok out')
    (hspecial : idx.special = true) (hoff : b = false → out' = out) :
    Reads (ls ++ emitIf b (stringLine name s)) start out₀ out' := by
  have hline : stringLine name s = s.map (headerLine name) := by
    cases s with
    | none => rfl
    | some v => rw [stringLine, Option.map_some, cString_of_no_nul (hs v rfl).no_nul]; rfl
  rw [hline]
  refine h.header s hname (fun v hv => (hs v hv).no_cr) (fun hb v hv => ?_) hoff
  refine dmsdpAnalyzeLine_value hname ?_
  rw [dmsdpAnalyzeValue, if_pos hspecial, dropWhile_space (hs v hv).no_space]
  exact hon hb v hv

end

/-! ## The message -/

/-- The headers that the parser takes up, in the order of the text. -/
def dmsdpEmitted (msg : DmsdpMsg) : List (Bool × DmsdpName) :=
  [(msg.has dmsdpFlagCseq, .cSeq), (msg.has dmsdpFlagServiceId, .serviceId),
    (msg.has dmsdpFlagServiceType, .serviceType),
    (msg.has dmsdpFlagDataSessionId, .dataSessionId), (msg.has dmsdpFlagCryptoVer, .cryptoVer),
    (msg.has dmsdpFlagCryptoSwitch, .cryptoSwitch),
    (msg.has dmsdpFlagCryptoAbility, .cryptoAbility), (msg.has dmsdpFlagCryptoAlg, .cryptoAlg),
    (msg.has dmsdpFlagFillp, .fillp), (msg.has dmsdpFlagTcp, .tcp),
    (msg.has2 dmsdpFlag2Backup, .backup), (msg.has2 dmsdpFlag2Simple, .simple),
    (msg.has2 dmsdpFlag2PolyPackage, .polyPackage), (msg.has dmsdpFlagUdpKa, .udpKa),
    (msg.has dmsdpFlagTransportCombined || msg.has dmsdpFlagTransportClient, .transport)]

def emittedFlags (flag : DmsdpName → UInt32) (headers : List (Bool × DmsdpName)) : UInt32 :=
  headers.foldl (fun f h => if h.1 then f ||| flag h.2 else f) 0

/-- What the parser has of the message after the first `k` of these headers. -/
def readUpTo (msg : DmsdpMsg) (k : ℕ) : DmsdpParsed :=
  let on (i : ℕ) (present : Bool) : Bool := decide (i < k) && present
  { dmsdpParsedInit with
    type := msg.type
    flags1 := emittedFlags DmsdpName.flag1 ((dmsdpEmitted msg).take k)
    flags2 := emittedFlags DmsdpName.flag2 ((dmsdpEmitted msg).take k)
    cseq := if on 0 (msg.has dmsdpFlagCseq) then msg.cseq else 0
    serviceId := if on 1 (msg.has dmsdpFlagServiceId) then msg.serviceId else none
    serviceType := if on 2 (msg.has dmsdpFlagServiceType) then msg.serviceType else 0
    dataSessionId := if on 3 (msg.has dmsdpFlagDataSessionId) then msg.dataSessionId else 0
    cryptoVer := if on 4 (msg.has dmsdpFlagCryptoVer) then msg.cryptoVer else 0
    cryptoSwitch := if on 5 (msg.has dmsdpFlagCryptoSwitch) then msg.cryptoSwitch else 0
    cryptoAbility := if on 6 (msg.has dmsdpFlagCryptoAbility) then msg.cryptoAbility else 0
    cryptoAlg := if on 7 (msg.has dmsdpFlagCryptoAlg) then msg.cryptoAlg else none
    fillp := if on 8 (msg.has dmsdpFlagFillp) then msg.fillp else 0
    tcp := if on 9 (msg.has dmsdpFlagTcp) then msg.tcp else 0
    backup := if on 10 (msg.has2 dmsdpFlag2Backup) then msg.backup.toUInt8 else 0
    simple := if on 11 (msg.has2 dmsdpFlag2Simple) then msg.simple.toUInt8 else 0
    polyPackage := if on 12 (msg.has2 dmsdpFlag2PolyPackage) then msg.polyPackage.toUInt8 else 0
    udpKa := if on 13 (msg.has dmsdpFlagUdpKa) then msg.udpKa else 0
    clientPortLo :=
      if on 14 (msg.has dmsdpFlagTransportCombined || msg.has dmsdpFlagTransportClient) then
        msg.clientPortLo else 0
    clientPortHi :=
      if on 14 (msg.has dmsdpFlagTransportCombined || msg.has dmsdpFlagTransportClient) then
        msg.clientPortHi else 0
    serverPortLo := if on 14 (msg.has dmsdpFlagTransportCombined) then msg.serverPortLo else 0
    serverPortHi := if on 14 (msg.has dmsdpFlagTransportCombined) then msg.serverPortHi else 0 }

/-- **The message as it is read back**: the fields of the emitted headers, and zero or NULL. -/
def dmsdpReadBack (msg : DmsdpMsg) : DmsdpParsed :=
  let transport := msg.has dmsdpFlagTransportCombined || msg.has dmsdpFlagTransportClient
  { dmsdpParsedInit with
    type := msg.type
    flags1 := emittedFlags DmsdpName.flag1 (dmsdpEmitted msg)
    flags2 := emittedFlags DmsdpName.flag2 (dmsdpEmitted msg)
    cseq := if msg.has dmsdpFlagCseq then msg.cseq else 0
    serviceId := if msg.has dmsdpFlagServiceId then msg.serviceId else none
    serviceType := if msg.has dmsdpFlagServiceType then msg.serviceType else 0
    dataSessionId := if msg.has dmsdpFlagDataSessionId then msg.dataSessionId else 0
    cryptoVer := if msg.has dmsdpFlagCryptoVer then msg.cryptoVer else 0
    cryptoSwitch := if msg.has dmsdpFlagCryptoSwitch then msg.cryptoSwitch else 0
    cryptoAbility := if msg.has dmsdpFlagCryptoAbility then msg.cryptoAbility else 0
    cryptoAlg := if msg.has dmsdpFlagCryptoAlg then msg.cryptoAlg else none
    fillp := if msg.has dmsdpFlagFillp then msg.fillp else 0
    tcp := if msg.has dmsdpFlagTcp then msg.tcp else 0
    backup := if msg.has2 dmsdpFlag2Backup then msg.backup.toUInt8 else 0
    simple := if msg.has2 dmsdpFlag2Simple then msg.simple.toUInt8 else 0
    polyPackage := if msg.has2 dmsdpFlag2PolyPackage then msg.polyPackage.toUInt8 else 0
    udpKa := if msg.has dmsdpFlagUdpKa then msg.udpKa else 0
    clientPortLo := if transport then msg.clientPortLo else 0
    clientPortHi := if transport then msg.clientPortHi else 0
    serverPortLo := if msg.has dmsdpFlagTransportCombined then msg.serverPortLo else 0
    serverPortHi := if msg.has dmsdpFlagTransportCombined then msg.serverPortHi else 0 }

theorem readUpTo_all (msg : DmsdpMsg) : readUpTo msg 15 = dmsdpReadBack msg := rfl

/-- The values of a message that come through. -/
structure DmsdpMsg.Plain (msg : DmsdpMsg) : Prop where
  serviceId : ∀ s ∈ msg.serviceId, PlainValue s
  cryptoAlg : ∀ s ∈ msg.cryptoAlg, PlainValue s
  cseq : msg.cseq.toNat < 2 ^ 31
  serviceType : msg.serviceType.toNat < 2 ^ 31
  dataSessionId : msg.dataSessionId.toNat < 2 ^ 31
  backup : msg.backup.toNat < 256
  simple : msg.simple.toNat < 256
  polyPackage : msg.polyPackage.toNat < 256
  clientPortLo : msg.clientPortLo.toNat ≤ 65535
  clientPortHi : msg.clientPortHi.toNat ≤ 65535
  serverPortLo : msg.serverPortLo.toNat ≤ 65535
  serverPortHi : msg.serverPortHi.toNat ≤ 65535

theorem ofNat_toUInt8 (b : UInt8) : (UInt32.ofNat b.toNat).toUInt8 = b := by
  rw [← UInt8.toNat_inj, UInt32.toNat_toUInt8, UInt32.toNat_ofNat']
  have := b.toNat_lt
  omega

theorem byte_lt (b : UInt8) : b.toNat < 2 ^ 31 := Nat.lt_trans b.toNat_lt (by decide)

section

variable {ls : List (Option Bytes)} {start : Bytes} {out₀ : DmsdpParsed} {msg : DmsdpMsg}

theorem Reads.cSeq (h : Reads ls start out₀ (readUpTo msg 0)) (hmsg : msg.Plain) :
    Reads (ls ++ emitIf (msg.has dmsdpFlagCseq) (unsignedLine "CSeq" msg.cseq.toNat))
      start out₀ (readUpTo msg 1) := by
  refine h.unsigned .cSeq (by decide) rfl rfl hmsg.cseq (fun hb => ?_) fun hb => ?_
  · simp only [readUpTo, dmsdpEmitted, hb, UInt32.ofNat_toNat]
    rfl
  · simp only [readUpTo, dmsdpEmitted, hb]
    rfl

theorem Reads.serviceId (h : Reads ls start out₀ (readUpTo msg 1)) (hmsg : msg.Plain) :
    Reads (ls ++ emitIf (msg.has dmsdpFlagServiceId) (stringLine "ServiceID" msg.serviceId))
      start out₀ (readUpTo msg 2) := by
  refine h.string .serviceId (by decide) hmsg.serviceId (fun hb v hv => ?_) rfl fun hb => ?_
  · have hvalue : msg.serviceId = some v := hv
    simp only [readUpTo, dmsdpEmitted, hb, hvalue]
    rfl
  · simp only [readUpTo, dmsdpEmitted, hb]
    rfl

theorem Reads.serviceType (h : Reads ls start out₀ (readUpTo msg 2)) (hmsg : msg.Plain) :
    Reads (ls ++ emitIf (msg.has dmsdpFlagServiceType)
      (unsignedLine "ServiceType" msg.serviceType.toNat))
      start out₀ (readUpTo msg 3) := by
  refine h.unsigned .serviceType (by decide) rfl rfl hmsg.serviceType (fun hb => ?_) fun hb => ?_
  · simp only [readUpTo, dmsdpEmitted, hb, UInt32.ofNat_toNat]
    rfl
  · simp only [readUpTo, dmsdpEmitted, hb]
    rfl

theorem Reads.dataSessionId (h : Reads ls start out₀ (readUpTo msg 3)) (hmsg : msg.Plain) :
    Reads (ls ++ emitIf (msg.has dmsdpFlagDataSessionId)
      (unsignedLine "DataSessionID" msg.dataSessionId.toNat))
      start out₀ (readUpTo msg 4) := by
  refine h.unsigned .dataSessionId (by decide) rfl rfl hmsg.dataSessionId
    (fun hb => ?_) fun hb => ?_
  · simp only [readUpTo, dmsdpEmitted, hb, UInt32.ofNat_toNat]
    rfl
  · simp only [readUpTo, dmsdpEmitted, hb]
    rfl

theorem Reads.cryptoVer (h : Reads ls start out₀ (readUpTo msg 4)) :
    Reads (ls ++ emitIf (msg.has dmsdpFlagCryptoVer) (unsignedLine "CryptoVer" msg.cryptoVer.toNat))
      start out₀ (readUpTo msg 5) := by
  refine h.unsigned .cryptoVer (by decide) rfl rfl (byte_lt _) (fun hb => ?_) fun hb => ?_
  · simp only [readUpTo, dmsdpEmitted, hb, ofNat_toUInt8]
    rfl
  · simp only [readUpTo, dmsdpEmitted, hb]
    rfl

theorem Reads.cryptoSwitch (h : Reads ls start out₀ (readUpTo msg 5)) :
    Reads (ls ++ emitIf (msg.has dmsdpFlagCryptoSwitch)
      (unsignedLine "CryptoSwitch" msg.cryptoSwitch.toNat))
      start out₀ (readUpTo msg 6) := by
  refine h.unsigned .cryptoSwitch (by decide) rfl rfl (byte_lt _) (fun hb => ?_) fun hb => ?_
  · simp only [readUpTo, dmsdpEmitted, hb, ofNat_toUInt8]
    rfl
  · simp only [readUpTo, dmsdpEmitted, hb]
    rfl

theorem Reads.cryptoAbility (h : Reads ls start out₀ (readUpTo msg 6)) :
    Reads (ls ++ emitIf (msg.has dmsdpFlagCryptoAbility)
      (unsignedLine "CryptoAbility" msg.cryptoAbility.toNat))
      start out₀ (readUpTo msg 7) := by
  refine h.unsigned .cryptoAbility (by decide) rfl rfl (byte_lt _) (fun hb => ?_) fun hb => ?_
  · simp only [readUpTo, dmsdpEmitted, hb, ofNat_toUInt8]
    rfl
  · simp only [readUpTo, dmsdpEmitted, hb]
    rfl

theorem Reads.cryptoAlg (h : Reads ls start out₀ (readUpTo msg 7)) (hmsg : msg.Plain) :
    Reads (ls ++ emitIf (msg.has dmsdpFlagCryptoAlg) (stringLine "CryptoAlg" msg.cryptoAlg))
      start out₀ (readUpTo msg 8) := by
  refine h.string .cryptoAlg (by decide) hmsg.cryptoAlg (fun hb v hv => ?_) rfl fun hb => ?_
  · have hvalue : msg.cryptoAlg = some v := hv
    simp only [readUpTo, dmsdpEmitted, hb, hvalue]
    rfl
  · simp only [readUpTo, dmsdpEmitted, hb]
    rfl

theorem Reads.fillp (h : Reads ls start out₀ (readUpTo msg 8)) :
    Reads (ls ++ emitIf (msg.has dmsdpFlagFillp) (unsignedLine "Fillp" msg.fillp.toNat))
      start out₀ (readUpTo msg 9) := by
  refine h.unsigned .fillp (by decide) rfl rfl (byte_lt _) (fun hb => ?_) fun hb => ?_
  · simp only [readUpTo, dmsdpEmitted, hb, ofNat_toUInt8]
    rfl
  · simp only [readUpTo, dmsdpEmitted, hb]
    rfl

theorem Reads.tcp (h : Reads ls start out₀ (readUpTo msg 9)) :
    Reads (ls ++ emitIf (msg.has dmsdpFlagTcp) (unsignedLine "TCP" msg.tcp.toNat))
      start out₀ (readUpTo msg 10) := by
  refine h.unsigned .tcp (by decide) rfl rfl (byte_lt _) (fun hb => ?_) fun hb => ?_
  · simp only [readUpTo, dmsdpEmitted, hb, ofNat_toUInt8]
    rfl
  · simp only [readUpTo, dmsdpEmitted, hb]
    rfl

theorem Reads.backup (h : Reads ls start out₀ (readUpTo msg 10)) (hmsg : msg.Plain) :
    Reads (ls ++ emitIf (msg.has2 dmsdpFlag2Backup) (unsignedLine "Backup" msg.backup.toNat))
      start out₀ (readUpTo msg 11) := by
  refine h.unsigned .backup (by decide) rfl rfl (Nat.lt_trans hmsg.backup (by decide))
    (fun hb => ?_) fun hb => ?_
  · simp only [readUpTo, dmsdpEmitted, hb, UInt32.ofNat_toNat]
    rfl
  · simp only [readUpTo, dmsdpEmitted, hb]
    rfl

theorem Reads.simple (h : Reads ls start out₀ (readUpTo msg 11)) (hmsg : msg.Plain) :
    Reads (ls ++ emitIf (msg.has2 dmsdpFlag2Simple) (unsignedLine "Simple" msg.simple.toNat))
      start out₀ (readUpTo msg 12) := by
  refine h.unsigned .simple (by decide) rfl rfl (Nat.lt_trans hmsg.simple (by decide))
    (fun hb => ?_) fun hb => ?_
  · simp only [readUpTo, dmsdpEmitted, hb, UInt32.ofNat_toNat]
    rfl
  · simp only [readUpTo, dmsdpEmitted, hb]
    rfl

theorem Reads.polyPackage (h : Reads ls start out₀ (readUpTo msg 12)) (hmsg : msg.Plain) :
    Reads (ls ++ emitIf (msg.has2 dmsdpFlag2PolyPackage)
      (unsignedLine "PolyPackage" msg.polyPackage.toNat))
      start out₀ (readUpTo msg 13) := by
  refine h.unsigned .polyPackage (by decide) rfl rfl (Nat.lt_trans hmsg.polyPackage (by decide))
    (fun hb => ?_) fun hb => ?_
  · simp only [readUpTo, dmsdpEmitted, hb, UInt32.ofNat_toNat]
    rfl
  · simp only [readUpTo, dmsdpEmitted, hb]
    rfl

theorem Reads.udpKa (h : Reads ls start out₀ (readUpTo msg 13)) :
    Reads (ls ++ emitIf (msg.has dmsdpFlagUdpKa) (unsignedLine "UdpKA" msg.udpKa.toNat))
      start out₀ (readUpTo msg 14) := by
  refine h.unsigned .udpKa (by decide) rfl rfl (byte_lt _) (fun hb => ?_) fun hb => ?_
  · simp only [readUpTo, dmsdpEmitted, hb, ofNat_toUInt8]
    rfl
  · simp only [readUpTo, dmsdpEmitted, hb]
    rfl

theorem emittedFlags_and {flag : DmsdpName → UInt32} {f : UInt32}
    {headers : List (Bool × DmsdpName)} (h : ∀ p ∈ headers, flag p.2 &&& f = 0) :
    emittedFlags flag headers &&& f = 0 := by
  have hor : ∀ x y : UInt32, x &&& f = 0 → y &&& f = 0 → (x ||| y) &&& f = 0 := by
    intro x y hx hy
    rw [← UInt32.toBitVec_inj] at hx hy ⊢
    rw [UInt32.toBitVec_and, UInt32.toBitVec_or, BitVec.and_or_distrib_right,
      ← UInt32.toBitVec_and, ← UInt32.toBitVec_and, hx, hy]
    rfl
  have hfold : ∀ init : UInt32, init &&& f = 0 →
      headers.foldl (fun g p => if p.1 then g ||| flag p.2 else g) init &&& f = 0 := by
    induction headers with
    | nil => exact fun init hinit => hinit
    | cons p headers ih =>
        intro init hinit
        rw [List.foldl_cons]
        refine ih (fun q hq => h q (List.mem_cons_of_mem p hq)) _ ?_
        split
        · exact hor _ _ hinit (h p List.mem_cons_self)
        · exact hinit
  exact hfold 0 UInt32.zero_and

/-- The flags of the ignored headers are nobody else's. -/
theorem dmsdpEmitted_flags (msg : DmsdpMsg) : ∀ p ∈ dmsdpEmitted msg,
    p.2.flag1 &&& DmsdpName.codec.flag1 = 0 ∧ p.2.flag1 &&& DmsdpName.kaRetry.flag1 = 0 := by
  intro p hp
  have hname : p.2 ∈ (dmsdpEmitted msg).map Prod.snd := List.mem_map_of_mem hp
  have hall : ∀ name ∈ (dmsdpEmitted msg).map Prod.snd,
      name.flag1 &&& DmsdpName.codec.flag1 = 0 ∧ name.flag1 &&& DmsdpName.kaRetry.flag1 = 0 := by
    show ∀ name ∈ [DmsdpName.cSeq, .serviceId, .serviceType, .dataSessionId, .cryptoVer,
      .cryptoSwitch, .cryptoAbility, .cryptoAlg, .fillp, .tcp, .backup, .simple, .polyPackage,
      .udpKa, .transport], _
    decide
  exact hall _ hname

theorem Reads.codec (h : Reads ls start out₀ (readUpTo msg 9)) :
    Reads (ls ++ emitIf (msg.has dmsdpFlagCodec) (unsignedLine "Codec" msg.codec.toNat))
      start out₀ (readUpTo msg 9) :=
  h.ignored .codec (by decide) (fun _ _ => rfl) rfl
    (emittedFlags_and fun p hp => (dmsdpEmitted_flags msg p (List.mem_of_mem_take hp)).1)

theorem Reads.kaRetry (h : Reads ls start out₀ (readUpTo msg 14)) :
    Reads (ls ++ emitIf (msg.has dmsdpFlagKaRetry) (unsignedLine "KaRetry" msg.kaRetry.toNat))
      start out₀ (readUpTo msg 14) :=
  h.ignored .kaRetry (by decide) (fun _ _ => rfl) rfl
    (emittedFlags_and fun p hp => (dmsdpEmitted_flags msg p (List.mem_of_mem_take hp)).2)

theorem clientTransport_plain (clo chi : UInt32) :
    (13 : UInt8) ∉ clientTransport clo chi ∧ (clientTransport clo chi).head? ≠ some 32 := by
  constructor
  · rw [clientTransport, List.mem_append, List.mem_append]
    rintro (h | h | h)
    · revert h
      decide
    · revert h
      decide
    · exact not_mem_portRange (by decide) (by decide) _ _ h
  · have hfront : (clientTransport clo chi).head? = some 82 := rfl
    rw [hfront]
    decide

theorem combinedTransport_plain (clo chi slo shi : UInt32) :
    (13 : UInt8) ∉ combinedTransport clo chi slo shi ∧
      (combinedTransport clo chi slo shi).head? ≠ some 32 := by
  constructor
  · rw [combinedTransport, List.mem_append, List.mem_append]
    rintro (h | h | h)
    · exact (clientTransport_plain clo chi).1 h
    · revert h
      decide
    · exact not_mem_portRange (by decide) (by decide) _ _ h
  · have hfront : (combinedTransport clo chi slo shi).head? = some 82 := rfl
    rw [hfront]
    decide

/-- The Transport line of a value. -/
theorem Reads.transportLine {out out' : DmsdpParsed} {b : Bool} (h : Reads ls start out₀ out)
    {value : Bytes} (hplain : (13 : UInt8) ∉ value ∧ value.head? ≠ some 32)
    (hon : b = true → dmsdpParseTransport value (flagged .transport out) = out')
    (hoff : b = false → out' = out) :
    Reads (ls ++ emitIf b (some (headerLine "Transport" value))) start out₀ out' := by
  have hname : (DmsdpName.transport, ascii "Transport") ∈ dmsdpNames := by decide
  refine h.header (some value) hname ?_ (fun hb v hv => ?_) hoff
  · intro v hv
    rw [← Option.some.inj hv]
    exact hplain.1
  · rw [← Option.some.inj hv]
    have hspecial : DmsdpName.transport.special = true := rfl
    refine dmsdpAnalyzeLine_value hname ?_
    rw [dmsdpAnalyzeValue, if_pos hspecial, dropWhile_space hplain.2, ← hon hb]
    rfl

theorem Reads.transport (h : Reads ls start out₀ (readUpTo msg 14)) (hmsg : msg.Plain) :
    Reads (ls ++
      if msg.has dmsdpFlagTransportCombined then
        [some (headerLine "Transport" (combinedTransport msg.clientPortLo msg.clientPortHi
          msg.serverPortLo msg.serverPortHi))]
      else
        emitIf (msg.has dmsdpFlagTransportClient)
          (some (headerLine "Transport" (clientTransport msg.clientPortLo msg.clientPortHi))))
      start out₀ (readUpTo msg 15) := by
  cases hcombined : msg.has dmsdpFlagTransportCombined with
  | true =>
      refine h.transportLine (b := true) (combinedTransport_plain _ _ _ _) (fun _ => ?_)
        fun hb => by cases hb
      rw [dmsdpParseTransport_combined hmsg.clientPortLo hmsg.clientPortHi hmsg.serverPortLo
        hmsg.serverPortHi]
      simp only [readUpTo, dmsdpEmitted, hcombined]
      rfl
  | false =>
      refine h.transportLine (clientTransport_plain _ _) (fun hb => ?_) fun hb => ?_
      · rw [dmsdpParseTransport_client hmsg.clientPortLo hmsg.clientPortHi]
        simp only [readUpTo, dmsdpEmitted, hcombined, hb]
        rfl
      · simp only [readUpTo, dmsdpEmitted, hcombined, hb]
        rfl

/-- The start line of a type. -/
theorem dmsdpStart : ∀ k : Fin 9,
    let line := if UInt32.ofNat k = dmsdpTypeResponse then ascii "DMSDP/1.0 200 OK\r\n"
      else dmsdpMethodLines.getD (UInt32.ofNat k).toNat []
    let start := line.take (line.length - 2)
    line = start ++ crlf ∧ (13 : UInt8) ∉ start ∧
      dmsdpStartLine start = some { dmsdpParsedInit with type := UInt32.ofNat k } := by
  decide +kernel

/-- **The emissions of a message** lead to the message as it is read back. -/
theorem dmsdpEmits_reads (htype : msg.type ≤ 8) (hmsg : msg.Plain) :
    ∃ ls start, dmsdpEmits msg = ls ++ [some crlf] ∧ (13 : UInt8) ∉ start ∧
      dmsdpStartLine start = some { dmsdpParsedInit with type := msg.type } ∧
      Reads ls start { dmsdpParsedInit with type := msg.type } (dmsdpReadBack msg) := by
  have hlt : msg.type.toNat < 9 := Nat.lt_succ_of_le (UInt32.le_iff_toNat_le.mp htype)
  have hall := dmsdpStart ⟨msg.type.toNat, hlt⟩
  simp only [UInt32.ofNat_toNat] at hall
  obtain ⟨start, hline, hcr, hstart⟩ : ∃ start, (if msg.type = dmsdpTypeResponse then
      ascii "DMSDP/1.0 200 OK\r\n" else dmsdpMethodLines.getD msg.type.toNat []) = start ++ crlf ∧
      (13 : UInt8) ∉ start ∧
      dmsdpStartLine start = some { dmsdpParsedInit with type := msg.type } := ⟨_, hall⟩
  refine ⟨_, start, rfl, hcr, hstart, ?_⟩
  rw [← readUpTo_all]
  refine Reads.transport ?_ hmsg
  refine Reads.kaRetry (Reads.udpKa ?_)
  refine Reads.polyPackage (Reads.simple (Reads.backup ?_ hmsg) hmsg) hmsg
  refine Reads.tcp (Reads.codec (Reads.fillp ?_))
  refine Reads.cryptoAlg (Reads.cryptoAbility (Reads.cryptoSwitch (Reads.cryptoVer ?_))) hmsg
  refine Reads.dataSessionId (Reads.serviceType (Reads.serviceId (Reads.cSeq ?_ hmsg) hmsg) hmsg) hmsg
  rw [hline]
  exact Reads.first _

end

/-! ## The round trip -/

theorem foldlM_emit {ls : List (Option Bytes)} : ∀ {buf text : Bytes},
    ls.foldlM emit buf = some text → ∃ lines : List Bytes, ls = lines.map some ∧
      text = buf ++ lines.flatten := by
  induction ls with
  | nil =>
      intro buf text h
      cases h
      exact ⟨[], rfl, (List.append_nil _).symm⟩
  | cons line ls ih =>
      intro buf text h
      rw [List.foldlM_cons] at h
      obtain ⟨buf₁, hbuf₁, hrest⟩ := Option.bind_eq_some_iff.mp h
      obtain ⟨l, rfl, hemit⟩ := Option.bind_eq_some_iff.mp hbuf₁
      split at hemit
      · cases hemit
      cases hemit
      obtain ⟨lines, rfl, rfl⟩ := ih hrest
      refine ⟨l :: lines, rfl, ?_⟩
      rw [List.flatten_cons, List.append_assoc]

theorem lines_length (bodies : List Bytes) :
    bodies.length ≤ (bodies.map (· ++ crlf)).flatten.length := by
  induction bodies with
  | nil => exact Nat.le_refl _
  | cons body bodies ih =>
      have hcrlf : crlf.length = 2 := rfl
      rw [List.map_cons, List.flatten_cons, List.length_append, List.length_append,
        List.length_cons, hcrlf]
      omega

/-- A text of whole lines is parsed line by line. -/
theorem dmsdpParse_lines {start : Bytes} {bodies : List Bytes} {out₀ out : DmsdpParsed}
    (hcr : (13 : UInt8) ∉ start) (hstart : dmsdpStartLine start = some out₀)
    (hbodies : ∀ l ∈ bodies, l ≠ [] ∧ (13 : UInt8) ∉ l)
    (hfold : bodies.foldlM (fun out l => dmsdpAnalyzeLine l out) out₀ = .ok out)
    (hbody : out.contentLength = 0) :
    dmsdpParse (start ++ crlf ++ ((bodies.map (· ++ crlf)).flatten ++ crlf)) = .ok out := by
  set rest := (bodies.map (· ++ crlf)).flatten ++ crlf with hrest
  have hcrlf : crlf.length = 2 := rfl
  have hfuel : bodies.length < (start ++ crlf ++ rest).length := by
    have hlines := lines_length bodies
    rw [List.length_append, List.length_append, hrest, List.length_append, hcrlf]
    omega
  have htake : (start ++ crlf ++ rest).take start.length = start := by
    rw [List.append_assoc, List.take_left]
  have hdrop : (start ++ crlf ++ rest).drop (start.length + 2) = rest :=
    List.drop_left' (by rw [List.length_append, hcrlf])
  have hpos : (start ++ crlf ++ rest).length ≠ 0 := by omega
  rw [dmsdpParse, if_neg hpos, memmem_crlf hcr]
  simp only
  rw [htake, hstart, hdrop]
  simp only
  rw [hrest, dmsdpHeaders_bodies hbodies hfuel hfold]
  simp only
  rw [dmsdpBody, hbody, if_neg (by decide), if_neg fun h => hpos (h.symm.trans rfl)]

theorem toUInt8_exact {v : UInt32} (h : v.toNat < 256) : v.toUInt8.toUInt32 = v := by
  rw [← UInt32.toNat_inj, UInt8.toNat_toUInt32, UInt32.toNat_toUInt8]
  omega

/-- **Round trip.** What is built is parsed, to the values of the emitted headers and nothing
else. -/
theorem dmsdpParse_dmsdpBuild {msg : DmsdpMsg} {cap : ℕ} {text : Bytes}
    (hbuild : dmsdpBuild msg cap = some text) (hmsg : msg.Plain) :
    dmsdpParse text = .ok (dmsdpReadBack msg) ∧
      (dmsdpReadBack msg).backup.toUInt32 =
        (if msg.has2 dmsdpFlag2Backup then msg.backup else 0) ∧
      (dmsdpReadBack msg).simple.toUInt32 =
        (if msg.has2 dmsdpFlag2Simple then msg.simple else 0) ∧
      (dmsdpReadBack msg).polyPackage.toUInt32 =
        (if msg.has2 dmsdpFlag2PolyPackage then msg.polyPackage else 0) := by
  have hexact : ∀ {v : UInt32} (b : Bool), v.toNat < 256 →
      (if b then v.toUInt8 else 0).toUInt32 = if b then v else 0 := by
    intro v b hv
    cases b with
    | true => exact toUInt8_exact hv
    | false => rfl
  refine ⟨?_, hexact _ hmsg.backup, hexact _ hmsg.simple, hexact _ hmsg.polyPackage⟩
  unfold dmsdpBuild at hbuild
  split at hbuild
  · cases hbuild
  rename_i htype
  split at hbuild
  · cases hbuild
  obtain ⟨text', hemit, hcap⟩ := Option.bind_eq_some_iff.mp hbuild
  split at hcap
  · cases hcap
  cases hcap
  obtain ⟨lines, hlines, rfl⟩ := foldlM_emit hemit
  obtain ⟨ls, start, hls, hcr, hstart, hreads⟩ := dmsdpEmits_reads (UInt32.not_lt.mp htype) hmsg
  rw [hlines] at hls
  have hsome : ∀ l ∈ ls, l ≠ none := by
    rintro l hl rfl
    have hmem : none ∈ lines.map some := hls ▸ List.mem_append_left _ hl
    obtain ⟨x, -, hx⟩ := List.mem_map.mp hmem
    cases hx
  obtain ⟨bodies, rfl, hbodies, hfold⟩ := hreads hsome
  have hall : lines = (start ++ crlf) :: bodies.map (· ++ crlf) ++ [crlf] := by
    refine List.map_injective_iff.mpr (Option.some_injective _) ?_
    rw [hls, List.map_append, List.map_cons, List.map_map]
    rfl
  rw [List.nil_append, hall, List.cons_append, List.flatten_cons, List.flatten_append,
    List.flatten_singleton]
  exact dmsdpParse_lines hcr hstart hbodies hfold rfl

/-- A SETUP with its ports. -/
def setupMsg : DmsdpMsg := dmsdpMsgSetup 7 (some (ascii "svc")) 3 1 1 5000 5001

theorem dmsdpParse_dmsdpBuild_setup :
    ∃ text, dmsdpBuild setupMsg 1400 = some text ∧ dmsdpParse text = .ok (dmsdpReadBack setupMsg) := by
  have hbuild : ∃ text, dmsdpBuild setupMsg 1400 = some text :=
    Option.isSome_iff_exists.mp (by decide +kernel)
  obtain ⟨text, hbuild⟩ := hbuild
  have hplain : setupMsg.Plain := by
    refine ⟨?_, ?_, ?_, ?_, ?_, ?_, ?_, ?_, ?_, ?_, ?_, ?_⟩
    · intro s hs
      rw [← Option.some.inj hs]
      exact ⟨by decide, by decide, by decide, by decide⟩
    · intro s hs
      cases hs
    all_goals decide
  exact ⟨text, hbuild, (dmsdpParse_dmsdpBuild hbuild hplain).1⟩

end HwPhoneLink.Dmsdp
