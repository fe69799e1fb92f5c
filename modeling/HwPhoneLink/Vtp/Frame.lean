import HwPhoneLink.Lib.Framing

/-!
# The VTP frame

`vtp_frame.c`: a 4-byte length, a nonce, the sealed header and data, a tag. The
cipher is a parameter, `Aead`, with the laws that AES-GCM has.
-/

namespace HwPhoneLink.Vtp

open BigEndian

def vtpNonceLen : ℕ := 12
def vtpTagLen : ℕ := 16
def vtpHeaderLen : ℕ := 16
def vtpModeCommon : ℕ := 1
def vtpFlagExtPresent : ℕ := 0x10000000

/-- An authenticated cipher with a 16-byte tag and no associated data. Either
function may fail. -/
structure Aead where
  /-- key, nonce and plaintext to ciphertext and tag -/
  encrypt : Bytes → Bytes → Bytes → Option (Bytes × Bytes)
  /-- key, nonce, ciphertext and tag to plaintext -/
  decrypt : Bytes → Bytes → Bytes → Bytes → Option Bytes
  encrypt_length : ∀ key nonce plain ct tag, encrypt key nonce plain = some (ct, tag) →
    ct.length = plain.length ∧ tag.length = vtpTagLen
  decrypt_encrypt : ∀ key nonce plain ct tag, encrypt key nonce plain = some (ct, tag) →
    decrypt key nonce ct tag = some plain

def vtpCommonFrameSize (dataLen : ℕ) : ℕ := 4 + vtpNonceLen + vtpHeaderLen + dataLen + vtpTagLen

/-- The 16 bytes in front of the data. -/
def vtpHeader (mode streamType scene : ℕ) (timestampNs : UInt32) (dataLen : ℕ) : Bytes :=
  putU32 (UInt32.ofNat (mode % 16 * 2 ^ 24 + streamType % 2 ^ 16)) ++
    (putU32 timestampNs ++ (putU32 (UInt32.ofNat dataLen) ++
      putU32 (UInt32.ofNat (scene % 2 ^ 16 * 2 ^ 16))))

/-- `none` is the `-1` of the source. `nonce` is what `softbus_random_bytes`
returned, `none` when it failed. -/
def vtpBuildCommonFrame (aead : Aead) (nonce : Option Bytes) (cap : ℕ) (key : Bytes)
    (mode streamType scene : ℕ) (timestampNs : UInt32) (data : Bytes) : Option Bytes :=
  let total := vtpCommonFrameSize data.length
  if cap < total then none
  else
    nonce.bind fun nonce =>
      (aead.encrypt key nonce
        (vtpHeader mode streamType scene timestampNs data.length ++ data)).map fun sealed =>
          putU32 (UInt32.ofNat (total - 4)) ++ (nonce ++ (sealed.1 ++ sealed.2))

structure VtpFrame where
  mode : ℕ
  streamType : ℕ
  scene : ℕ
  timestampNs : UInt32
  data : Bytes
deriving DecidableEq

/-- `4 + n` is computed in 32 bits when it is compared with the length. -/
def vtpParseCommonFrame (aead : Aead) (msg : Bytes) (msgLen : ℕ) (key : Bytes) (outCap : ℕ) :
    Option VtpFrame :=
  if msgLen < 4 + vtpNonceLen + vtpHeaderLen + vtpTagLen then none
  else
    let n := (u32At msg 0).toNat
    if n < vtpNonceLen + vtpHeaderLen + vtpTagLen then none
    else if msgLen ≠ (4 + n) % 2 ^ 32 then none
    else
      let nonce := field vtpNonceLen 4 msg
      let ctLen := n - vtpNonceLen - vtpTagLen
      let ct := field ctLen (4 + vtpNonceLen) msg
      let tag := field vtpTagLen (4 + n - vtpTagLen) msg
      match aead.decrypt key nonce ct tag with
      | none => none
      | some plain =>
          let flags := (u32At plain 0).toNat
          let payloadLen := (u32At plain 8).toNat
          if flags / vtpFlagExtPresent % 2 ≠ 0 then none
          else if payloadLen ≠ ctLen - vtpHeaderLen then none
          else if payloadLen > outCap then none
          else some
            { mode := flags / 2 ^ 24 % 16, streamType := flags % 2 ^ 16
              scene := (u32At plain 12).toNat / 2 ^ 16, timestampNs := u32At plain 4
              data := field payloadLen vtpHeaderLen plain }

theorem vtpHeader_length (mode streamType scene : ℕ) (ts : UInt32) (dataLen : ℕ) :
    (vtpHeader mode streamType scene ts dataLen).length = vtpHeaderLen := by
  simp [vtpHeader, vtpHeaderLen]

/-- Four words in front of a byte string, read back. -/
theorem u32At_words (a b c d : UInt32) (rest : Bytes) :
    let buf := putU32 a ++ (putU32 b ++ (putU32 c ++ putU32 d)) ++ rest
    u32At buf 0 = a ∧ u32At buf 4 = b ∧ u32At buf 8 = c ∧ u32At buf 12 = d := by
  intro buf
  have hbuf : buf = putU32 a ++ (putU32 b ++ (putU32 c ++ (putU32 d ++ rest))) := by
    simp only [buf, List.append_assoc]
  rw [hbuf]
  refine ⟨u32At_zero _ _, u32At_append _ _ _ (putU32_length _), ?_, ?_⟩
  · rw [← List.append_assoc]
    exact u32At_append _ _ _ (by simp)
  · rw [← List.append_assoc, ← List.append_assoc]
    exact u32At_append _ _ _ (by simp)

theorem vtpBuildCommonFrame_length {aead : Aead} {nonce : Option Bytes} {cap : ℕ} {key : Bytes}
    {mode streamType scene : ℕ} {ts : UInt32} {data frame : Bytes}
    (hnonce : ∀ n, nonce = some n → n.length = vtpNonceLen)
    (h : vtpBuildCommonFrame aead nonce cap key mode streamType scene ts data = some frame) :
    frame.length = vtpCommonFrameSize data.length := by
  unfold vtpBuildCommonFrame at h
  simp only at h
  split at h
  · cases h
  obtain ⟨n, hn, hmap⟩ := Option.bind_eq_some_iff.mp h
  obtain ⟨⟨ct, tag⟩, hsealed, rfl⟩ := Option.map_eq_some_iff.mp hmap
  obtain ⟨hct, htag⟩ := aead.encrypt_length _ _ _ _ _ hsealed
  have hlen := hnonce n hn
  simp only [List.length_append, putU32_length, hlen, hct, htag, vtpHeader_length,
    vtpCommonFrameSize]
  omega

/-- The parser does not look past the length it is given. -/
theorem vtpParseCommonFrame_local (aead : Aead) (frame more key : Bytes) (outCap : ℕ) :
    vtpParseCommonFrame aead (frame ++ more) frame.length key outCap =
      vtpParseCommonFrame aead frame frame.length key outCap := by
  unfold vtpParseCommonFrame
  by_cases hshort : frame.length < 4 + vtpNonceLen + vtpHeaderLen + vtpTagLen
  · rw [if_pos hshort, if_pos hshort]
  rw [if_neg hshort, if_neg hshort]
  simp only [vtpNonceLen, vtpHeaderLen, vtpTagLen] at hshort ⊢
  rw [u32At_append_left (by omega)]
  have hn := (u32At frame 0).toNat_lt
  generalize (u32At frame 0).toNat = n at hn ⊢
  by_cases hmin : n < 12 + 16 + 16
  · simp only [hmin, if_true]
  by_cases hlen : frame.length ≠ (4 + n) % 2 ^ 32
  · simp only [ne_eq, hlen, not_false_eq_true, if_true]
  have hall : frame.length = 4 + n := by omega
  rw [field_append_left (by omega), field_append_left (by omega), field_append_left (by omega)]

/-- **VTP round trip.** A frame that was built parses to its data, whatever
follows it in the buffer. -/
theorem vtpParseCommonFrame_build {aead : Aead} {nonce : Option Bytes} {cap : ℕ} {key : Bytes}
    {mode streamType scene : ℕ} {ts : UInt32} {data frame : Bytes}
    (hnonce : ∀ n, nonce = some n → n.length = vtpNonceLen)
    (h : vtpBuildCommonFrame aead nonce cap key mode streamType scene ts data = some frame)
    {outCap : ℕ} (hcap : data.length ≤ outCap) (hsize : vtpCommonFrameSize data.length < 2 ^ 32)
    (more : Bytes) :
    vtpParseCommonFrame aead (frame ++ more) frame.length key outCap =
      some { mode := mode % 16, streamType := streamType % 2 ^ 16, scene := scene % 2 ^ 16
             timestampNs := ts, data := data } := by
  have hframe := vtpBuildCommonFrame_length hnonce h
  unfold vtpBuildCommonFrame at h
  simp only at h
  split at h
  · cases h
  obtain ⟨n, hn, hmap⟩ := Option.bind_eq_some_iff.mp h
  obtain ⟨⟨ct, tag⟩, hsealed, hbuilt⟩ := Option.map_eq_some_iff.mp hmap
  obtain ⟨hct, htag⟩ := aead.encrypt_length _ _ _ _ _ hsealed
  have hopen := aead.decrypt_encrypt _ _ _ _ _ hsealed
  have hlen := hnonce n hn
  set plain := vtpHeader mode streamType scene ts data.length ++ data with hplain
  have hplainLen : plain.length = vtpHeaderLen + data.length := by
    rw [hplain, List.length_append, vtpHeader_length]
  obtain ⟨hflags, hts, hpayload, hscene⟩ := u32At_words
    (UInt32.ofNat (mode % 16 * 2 ^ 24 + streamType % 2 ^ 16)) ts (UInt32.ofNat data.length)
    (UInt32.ofNat (scene % 2 ^ 16 * 2 ^ 16)) data
  rw [← vtpHeader, ← hplain] at hflags hts hpayload hscene
  simp only [vtpCommonFrameSize, vtpNonceLen, vtpHeaderLen, vtpTagLen] at *
  have hnat : (UInt32.ofNat (4 + 12 + 16 + data.length + 16 - 4)).toNat =
      44 + data.length := by
    rw [UInt32.toNat_ofNat', Nat.mod_eq_of_lt (by omega)]
    omega
  have hword : u32At (frame ++ more) 0 =
      UInt32.ofNat (4 + 12 + 16 + data.length + 16 - 4) := by
    rw [← hbuilt, List.append_assoc, u32At_zero]
  have hfieldNonce : field 12 4 (frame ++ more) = n := by
    rw [← hbuilt]
    simp only [List.append_assoc]
    exact field_append _ _ _ (by simp) hlen
  have hfieldCt : field (44 + data.length - 12 - 16) (4 + 12) (frame ++ more) = ct := by
    rw [← hbuilt]
    simp only [List.append_assoc]
    rw [← List.append_assoc]
    exact field_append _ _ _ (by simp [hlen]) (by omega)
  have hfieldTag : field 16 (4 + (44 + data.length) - 16) (frame ++ more) = tag := by
    rw [← hbuilt]
    simp only [List.append_assoc]
    rw [← List.append_assoc, ← List.append_assoc]
    refine field_append _ _ _ ?_ htag
    simp only [List.length_append, putU32_length, hlen, hct, hplainLen]
    omega
  have hfieldData : field data.length 16 plain = data := by
    have := field_append (vtpHeader mode streamType scene ts data.length) data []
      (vtpHeader_length _ _ _ _ _) rfl
    simpa [hplain, vtpHeaderLen] using this
  have hflagsNat : (u32At plain 0).toNat = mode % 16 * 2 ^ 24 + streamType % 2 ^ 16 := by
    rw [hflags, UInt32.toNat_ofNat', Nat.mod_eq_of_lt (by omega)]
  have hpayloadNat : (u32At plain 8).toNat = data.length := by
    rw [hpayload, UInt32.toNat_ofNat', Nat.mod_eq_of_lt (by omega)]
  have hsceneNat : (u32At plain 12).toNat = scene % 2 ^ 16 * 2 ^ 16 := by
    rw [hscene, UInt32.toNat_ofNat', Nat.mod_eq_of_lt (by omega)]
  simp only [vtpParseCommonFrame, vtpNonceLen, vtpHeaderLen, vtpTagLen, vtpFlagExtPresent, hword,
    hnat, hframe, hfieldNonce, hfieldCt, hfieldTag, hopen]
  rw [if_neg (by omega), if_neg (by omega), if_neg (by omega), hflagsNat, if_neg (by omega),
    hpayloadNat, if_neg (by omega), if_neg (by omega), hfieldData, hsceneNat, hts]
  have hmode : (mode % 16 * 2 ^ 24 + streamType % 2 ^ 16) / 2 ^ 24 % 16 = mode % 16 := by omega
  have hstream : (mode % 16 * 2 ^ 24 + streamType % 2 ^ 16) % 2 ^ 16 = streamType % 2 ^ 16 := by
    omega
  have hscene' : scene % 2 ^ 16 * 2 ^ 16 / 2 ^ 16 = scene % 2 ^ 16 := by omega
  rw [hmode, hstream, hscene']

/-! ## Known answers -/

/-- One message sealed by the cipher. -/
structure VtpSealed where
  key : Bytes
  nonce : Bytes
  plain : Bytes
  ct : Bytes
  tag : Bytes
deriving DecidableEq

/-- The cipher as far as a list of sealed messages tells it. -/
def Aead.ofAnswers (ms : List VtpSealed)
    (hlen : ∀ m ∈ ms, m.ct.length = m.plain.length ∧ m.tag.length = vtpTagLen)
    (hinj : ∀ m ∈ ms, ∀ m' ∈ ms, m.ct = m'.ct → m.plain = m'.plain) : Aead where
  encrypt key nonce plain :=
    (ms.find? fun m => m.key = key ∧ m.nonce = nonce ∧ m.plain = plain).map fun m => (m.ct, m.tag)
  decrypt key nonce ct tag :=
    (ms.find? fun m => m.key = key ∧ m.nonce = nonce ∧ m.ct = ct ∧ m.tag = tag).map (·.plain)
  encrypt_length := by
    intro key nonce plain ct tag h
    obtain ⟨m, hm, heq⟩ := Option.map_eq_some_iff.mp h
    have hfound := List.find?_some hm
    simp only [decide_eq_true_eq] at hfound
    have hlens := hlen m (List.mem_of_find?_eq_some hm)
    rw [Prod.mk.injEq] at heq
    rw [← heq.1, ← heq.2, ← hfound.2.2]
    exact hlens
  decrypt_encrypt := by
    intro key nonce plain ct tag h
    obtain ⟨m, hm, heq⟩ := Option.map_eq_some_iff.mp h
    have hfound := List.find?_some hm
    simp only [decide_eq_true_eq] at hfound
    obtain ⟨hkey, hnonce, hplain⟩ := hfound
    rw [Prod.mk.injEq] at heq
    have hmem := List.mem_of_find?_eq_some hm
    cases hfind : ms.find? fun m => m.key = key ∧ m.nonce = nonce ∧ m.ct = ct ∧ m.tag = tag with
    | none =>
        have hno := List.find?_eq_none.mp hfind m hmem
        simp [hkey, hnonce, heq.1, heq.2] at hno
    | some m' =>
        have hfound := List.find?_some hfind
        simp only [decide_eq_true_eq] at hfound
        have hsame := hinj m' (List.mem_of_find?_eq_some hfind) m hmem
          (hfound.2.2.1.trans heq.1.symm)
        rw [Option.map_some, hsame, hplain]

end HwPhoneLink.Vtp
