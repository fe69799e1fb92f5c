import HwPhoneLink.Vtp.Frame

/-!
# What the VTP parser accepts

The lengths of an accepted frame agree: the prefix with the message, the sealed part with
the prefix, the payload length in the sealed header with the sealed part. The sum of four
and the prefix is taken in 32 bits, but a prefix that wraps gives a length below the minimum.
-/

namespace HwPhoneLink.Vtp

open BigEndian

/-- Nothing opens but what was sealed. -/
def Aead.Authentic (aead : Aead) : Prop :=
  ∀ key nonce ct tag plain, aead.decrypt key nonce ct tag = some plain →
    aead.encrypt key nonce plain = some (ct, tag)

/-- A frame of which all lengths agree, with the plaintext that was sealed into it. -/
structure VtpAccepted (aead : Aead) (key msg : Bytes) (outCap : ℕ) (f : VtpFrame)
    (plain : Bytes) : Prop where
  length_eq : msg.length = 4 + (u32At msg 0).toNat
  sealed_eq : aead.encrypt key (field vtpNonceLen 4 msg) plain =
    some (field plain.length (4 + vtpNonceLen) msg,
      field vtpTagLen (msg.length - vtpTagLen) msg)
  plain_length : (u32At msg 0).toNat = vtpNonceLen + plain.length + vtpTagLen
  no_ext : (u32At plain 0).toNat / vtpFlagExtPresent % 2 = 0
  payload_length : (u32At plain 8).toNat + vtpHeaderLen = plain.length
  data_eq : f.data = plain.drop vtpHeaderLen
  out_length : f.data.length = (u32At plain 8).toNat
  out_le : f.data.length ≤ outCap

theorem vtpParseCommonFrame_accepted {aead : Aead} (hauth : aead.Authentic) {key msg : Bytes}
    {outCap : ℕ} {f : VtpFrame} (h : vtpParseCommonFrame aead msg msg.length key outCap = some f) :
    ∃ plain, VtpAccepted aead key msg outCap f plain := by
  have hnonce : vtpNonceLen = 12 := rfl
  have htag : vtpTagLen = 16 := rfl
  have hheader : vtpHeaderLen = 16 := rfl
  have hword := (u32At msg 0).toNat_lt
  unfold vtpParseCommonFrame at h
  split at h
  · cases h
  rename_i hshort
  dsimp only at h
  split at h
  · cases h
  rename_i hmin
  split at h
  · cases h
  rename_i hmatch
  -- a prefix that wraps leaves less than four bytes
  have hlen : msg.length = 4 + (u32At msg 0).toNat := by omega
  split at h
  · cases h
  rename_i plain hopen
  have hsealed := hauth _ _ _ _ _ hopen
  obtain ⟨hct, -⟩ := aead.encrypt_length _ _ _ _ _ hsealed
  have hplain : plain.length = (u32At msg 0).toNat - vtpNonceLen - vtpTagLen := by
    rw [← hct]
    exact field_length (by omega)
  split at h
  · cases h
  rename_i hext
  split at h
  · cases h
  rename_i hpay
  split at h
  · cases h
  rename_i hcap
  cases h
  have hpayload : (u32At plain 8).toNat + vtpHeaderLen = plain.length := by omega
  have hdata : field (u32At plain 8).toNat vtpHeaderLen plain = plain.drop vtpHeaderLen := by
    rw [field, List.take_of_length_le]
    rw [List.length_drop]
    omega
  have hout : (plain.drop vtpHeaderLen).length = (u32At plain 8).toNat := by
    rw [List.length_drop]
    omega
  rw [← hdata] at hout
  refine ⟨plain, hlen, ?_, by omega, not_not.mp hext, hpayload, hdata, hout, ?_⟩
  · rw [hplain, hlen]
    exact hsealed
  · show (field (u32At plain 8).toNat vtpHeaderLen plain).length ≤ outCap
    omega

/-- **The VTP codec.** A frame that was built parses to its fields and payload; a byte
string that is accepted is one sealed frame, of which all lengths agree. -/
theorem vtp_codec (aead : Aead) (hauth : aead.Authentic) :
    (∀ (key nonce data frame : Bytes) (cap mode streamType scene : ℕ) (ts : UInt32),
      nonce.length = vtpNonceLen → mode < 16 → streamType < 2 ^ 16 → scene < 2 ^ 16 →
      data.length < 2 ^ 31 - 64 →
      vtpBuildCommonFrame aead (some nonce) cap key mode streamType scene ts data = some frame →
      ∀ outCap ≥ data.length, vtpParseCommonFrame aead frame frame.length key outCap =
        some ⟨mode, streamType, scene, ts, data⟩) ∧
    (∀ (key msg : Bytes) (outCap : ℕ) (f : VtpFrame),
      vtpParseCommonFrame aead msg msg.length key outCap = some f →
      ∃ plain, VtpAccepted aead key msg outCap f plain) := by
  refine ⟨?_, fun key msg outCap f h => vtpParseCommonFrame_accepted hauth h⟩
  intro key nonce data frame cap mode streamType scene ts hnonce hmode hstream hscene hdata hbuild
    outCap hcap
  have hsize : vtpCommonFrameSize data.length < 2 ^ 32 := by
    simp only [vtpCommonFrameSize, vtpNonceLen, vtpHeaderLen, vtpTagLen]
    omega
  have hparse := vtpParseCommonFrame_build (fun n hn => Option.some.inj hn ▸ hnonce) hbuild hcap
    hsize []
  rwa [List.append_nil, Nat.mod_eq_of_lt hmode, Nat.mod_eq_of_lt hstream,
    Nat.mod_eq_of_lt hscene] at hparse

/-! ## One sealed message -/

/-- A message of mode 3 sealed with AES-256-GCM under the zero key. -/
def oneSealed : VtpSealed where
  key := List.replicate 32 0
  nonce := List.replicate 12 1
  plain := vtpHeader 3 0x1234 0x5678 7 1 ++ [65]
  ct := [118, 64, 209, 94, 122, 137, 120, 250, 98, 182, 228, 135, 237, 87, 124, 105, 253]
  tag := [106, 216, 203, 110, 207, 76, 69, 148, 159, 161, 26, 123, 70, 176, 78, 242]

def oneAead : Aead := Aead.ofAnswers [oneSealed] (by decide) (by decide)

theorem oneAead_authentic : oneAead.Authentic := by
  intro key nonce ct tag plain h
  obtain ⟨m, hm, rfl⟩ := Option.map_eq_some_iff.mp h
  have hmem := List.mem_singleton.mp (List.mem_of_find?_eq_some hm)
  have hfound := List.find?_some hm
  simp only [decide_eq_true_eq] at hfound
  obtain ⟨rfl, rfl, rfl, rfl⟩ := hfound
  rw [hmem]
  decide

theorem vtp_codec_one :
    ∃ frame, vtpBuildCommonFrame oneAead (some (List.replicate 12 1)) 64 (List.replicate 32 0) 3
        0x1234 0x5678 7 [65] = some frame ∧
      vtpParseCommonFrame oneAead frame frame.length (List.replicate 32 0) 1 =
        some ⟨3, 0x1234, 0x5678, 7, [65]⟩ ∧
      ∃ plain, VtpAccepted oneAead (List.replicate 32 0) frame 1 ⟨3, 0x1234, 0x5678, 7, [65]⟩
        plain := by
  obtain ⟨hbuild, haccept⟩ := vtp_codec oneAead oneAead_authentic
  have hparse := hbuild (List.replicate 32 0) (List.replicate 12 1) [65] _ 64 3 0x1234 0x5678 7
    (by decide) (by decide) (by decide) (by decide) (by decide) rfl 1 (by decide)
  exact ⟨_, rfl, hparse, haccept _ _ _ _ hparse⟩

end HwPhoneLink.Vtp
