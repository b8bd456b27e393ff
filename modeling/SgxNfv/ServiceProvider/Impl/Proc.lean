import SgxNfv.ServiceProvider.Impl.Ias

/-!
This module contains the functions of the service provider that process the messages 0, 1 and 3 of
the remote attestation. A message is the memory behind its pointer, and `none` stands for `NULL`.
The copies with `memcpy_s` are between objects of one size, so that they never fail.
-/

open C

namespace ServiceProvider

structure Msg0Env where
  enroll : Int
  deriving DecidableEq, Repr

def spRaProcMsg0Req (env : Msg0Env) (pMsg0 : Option (List UInt8)) (msg0Size : UInt32)
    : Sp Unit := do
  match pMsg0 with
  | none => stop (-1)
  | some msg0 =>
    stopIf (msg0Size ≠ 4) (-1)
    let extendedEpidGroupId := uint32 (← read (member msg0 0 4))
    let s ← get
    if s.gIsSpRegistered = false
        ∨ s.gSpExtendedEpidGroupId.any (fun id => id ≠ extendedEpidGroupId) then
      match gExtendedEpidGroups.find? (fun id => id = extendedEpidGroupId) with
      | none => stop SpRaMsgStatus.unsupportedExtendedEpidGroup.code
      | some id =>
        modify fun s => { s with gSpExtendedEpidGroupId := some id }
        let ret ← iasEnroll env.enroll
        stopIf (ret ≠ 0) SpRaMsgStatus.iasFailed.code
        modify fun s => { s with gIsSpRegistered := true }

/--
How the calls inside `sp_ra_proc_msg1_req` end, and the random numbers of the key pair and of the
signature.
-/
structure Msg1Env where
  getSigrl : Int
  openContext : SampleStatus
  createKeyPair : SampleStatus
  keySeed : Bytes 32
  computeSharedDhkey : SampleStatus
  deriveSmk : DeriveEnv
  deriveMk : DeriveEnv
  deriveSk : DeriveEnv
  deriveVk : DeriveEnv
  malloc : Bool
  sign : SampleStatus
  signSeed : Bytes 32
  cmac : SampleStatus
  deriving DecidableEq, Repr

structure Msg2 where
  gB : Bytes 64
  spid : Bytes 16
  quoteType : UInt16
  kdfId : UInt16
  signGbGa : Bytes 32 × Bytes 32
  mac : Bytes 16
  sigRl : List UInt8
  deriving DecidableEq, Repr

def sizeofMsg2 : UInt32 := 168

def le16 (n : UInt16) : List UInt8 := [n.toUInt8, (n >>> 8).toUInt8]

def Msg2.cmaced (m : Msg2) : List UInt8 :=
  m.gB.val ++ m.spid.val ++ le16 m.quoteType ++ le16 m.kdfId ++ m.signGbGa.1.val ++ m.signGbGa.2.val

def deriveInto (lib : SampleCrypto) (env : DeriveEnv) (dhKey : Bytes 32) (keyId : DeriveKeyType)
    (key : SpDbItem → Bytes 16) (setKey : SpDbItem → Bytes 16 → SpDbItem) : Sp Unit := do
  let (deriveRet, derivedKey) := deriveKey lib env dhKey keyId (key (← get).gSpDb)
  modifyDb fun db => setKey db derivedKey
  stopIf (deriveRet = false) SpRaMsgStatus.internalError.code

def spRaProcMsg1Req (lib : SampleCrypto) (env : Msg1Env) (pMsg1 : Option (List UInt8))
    (msg1Size : UInt32) (ppMsg2 : Bool) : Sp (Response Msg2) := do
  match pMsg1 with
  | none => stop (-1)
  | some msg1 =>
    stopIf (ppMsg2 = false ∨ msg1Size ≠ 68) (-1)
    stopIf ((← get).gIsSpRegistered = false) SpRaMsgStatus.unsupportedExtendedEpidGroup.code
    let _ ← deref (← get).gSpExtendedEpidGroupId
    let (ret, sigRl) := iasGetSigrl env.getSigrl
    stopIf (ret ≠ 0) SpRaMsgStatus.iasFailed.code
    let gA ← read (member msg1 0 64)
    modifyDb fun db => { db with gA }
    call env.openContext (-1)
    call env.createKeyPair SpRaMsgStatus.internalError.code
    let (privKey, pubKey) := lib.ecc256CreateKeyPair env.keySeed
    modifyDb fun db => { db with b := privKey, gB := pubKey }
    call env.computeSharedDhkey SpRaMsgStatus.internalError.code
    let dhKey := lib.ecc256ComputeSharedDhkey privKey gA
    deriveInto lib env.deriveSmk dhKey .smk (·.smkKey) fun db smkKey => { db with smkKey }
    deriveInto lib env.deriveMk dhKey .mk (·.mkKey) fun db mkKey => { db with mkKey }
    deriveInto lib env.deriveSk dhKey .sk (·.skKey) fun db skKey => { db with skKey }
    deriveInto lib env.deriveVk dhKey .vk (·.vkKey) fun db vkKey => { db with vkKey }
    stopIf (env.malloc = false) SpRaMsgStatus.internalError.code
    let s ← get
    call env.sign SpRaMsgStatus.internalError.code
    let msg2 : Msg2 := {
      gB := s.gSpDb.gB
      spid := s.gSpid
      -- `SAMPLE_QUOTE_LINKABLE_SIGNATURE` and `SAMPLE_AES_CMAC_KDF_ID`
      quoteType := 1
      kdfId := 1
      signGbGa := lib.ecdsaSign (s.gSpDb.gB.val ++ s.gSpDb.gA.val) gSpPrivKey env.signSeed
      mac := .zero 16
      sigRl
    }
    call env.cmac SpRaMsgStatus.internalError.code
    let mac := lib.rijndael128Cmac s.gSpDb.smkKey msg2.cmaced
    return {
      type := 2
      status := (0, 0)
      size := sizeofMsg2 + UInt32.ofNat sigRl.length
      body := { msg2 with mac }
    }

structure Msg3Env where
  cmac : SampleStatus
  shaInit : SampleStatus
  shaUpdateGa : SampleStatus
  shaUpdateGb : SampleStatus
  shaUpdateVk : SampleStatus
  shaGetHash : SampleStatus
  verify : IasEnv
  malloc : Bool
  cmacResult : SampleStatus
  gcmEncrypt : SampleStatus
  deriving DecidableEq, Repr

structure AttResultMsg where
  platformInfoBlob : Bytes 97
  mac : Bytes 16
  payloadSize : UInt32
  payloadTag : Bytes 16
  payload : List UInt8
  deriving DecidableEq, Repr

def sizeofMsg3 : UInt32 := 336

def sizeofAttResultMsg : UInt32 := 145

structure EnclaveReport where
  signType : UInt16
  basename : Bytes 32
  flags : Bytes 8
  xfrm : Bytes 8
  mrEnclave : Bytes 32
  mrSigner : Bytes 32
  isvProdId : UInt16
  isvSvn : UInt16
  deriving DecidableEq, Repr

/--
Read the members at their offsets in message 3, where the quote begins at 336 and its report body at
384.
-/
def enclaveReport (msg3 : List UInt8) : Except Fault EnclaveReport := do
  let signType ← member msg3 338 2
  let basename ← member msg3 352 32
  let flags ← member msg3 432 8
  let xfrm ← member msg3 440 8
  let mrEnclave ← member msg3 448 32
  let mrSigner ← member msg3 512 32
  let isvProdId ← member msg3 640 2
  let isvSvn ← member msg3 642 2
  return {
    signType := uint16 signType, basename, flags, xfrm, mrEnclave, mrSigner
    isvProdId := uint16 isvProdId, isvSvn := uint16 isvSvn
  }

def spRaProcMsg3Req (lib : SampleCrypto) (env : Msg3Env) (pMsg3 : Option (List UInt8))
    (msg3Size : UInt32) (ppAttResultMsg : Bool) : Sp (Response AttResultMsg) := do
  match pMsg3 with
  | none => stop SpRaMsgStatus.internalError.code
  | some msg3 =>
    stopIf (msg3Size < sizeofMsg3 ∨ ppAttResultMsg = false) SpRaMsgStatus.internalError.code
    stopIf ((← get).gIsSpRegistered = false) SpRaMsgStatus.unsupportedExtendedEpidGroup.code
    let db := (← get).gSpDb
    -- Compare `g_a` in message 3 with local `g_a`.
    let gA ← read (member msg3 16 64)
    stopIf (gA ≠ db.gA) SpRaMsgStatus.protocolError.code
    -- Verify the message mac using SMK.
    let msg3Cmaced ← read (slice msg3 16 (msg3Size - 16).toNat)
    call env.cmac SpRaMsgStatus.internalError.code
    let mac ← read (member msg3 0 16)
    stopIf (mac ≠ lib.rijndael128Cmac db.smkKey msg3Cmaced) SpRaMsgStatus.integrityFailed.code
    let psSecProp ← read (member msg3 80 256)
    modifyDb fun db => { db with psSecProp }
    -- Verify the `report_data` in the quote.
    call env.shaInit SpRaMsgStatus.internalError.code
    call env.shaUpdateGa SpRaMsgStatus.internalError.code
    call env.shaUpdateGb SpRaMsgStatus.internalError.code
    call env.shaUpdateVk SpRaMsgStatus.internalError.code
    call env.shaGetHash SpRaMsgStatus.internalError.code
    let hash := lib.sha256 (db.gA.val ++ db.gB.val ++ db.vkKey.val)
    let reportData ← read (member msg3 704 64)
    stopIf (hash.append (.zero 32) ≠ reportData) SpRaMsgStatus.integrityFailed.code
    let _ ← deref (← get).gSpExtendedEpidGroupId
    match iasVerifyAttestationEvidence lib env.verify with
    | .error _ => stop SpRaMsgStatus.iasFailed.code
    | .ok attestationReport =>
      stopIf (env.malloc = false) SpRaMsgStatus.internalError.code
      let _ ← read (enclaveReport msg3)
      let isvPolicyPassed := true
      call env.cmacResult SpRaMsgStatus.internalError.code
      let body : AttResultMsg := {
        platformInfoBlob := attestationReport.infoBlob
        mac := lib.rijndael128Cmac db.mkKey attestationReport.infoBlob.val
        payloadSize := 8
        payloadTag := .zero 16
        payload := List.replicate 8 0
      }
      let response : Response AttResultMsg := {
        type := 4
        status := (if attestationReport.status = .ok then 0 else 0xff,
          if attestationReport.pseStatus = .ok then 0 else 0xff)
        size := sizeofAttResultMsg
        body
      }
      if attestationReport.status = .ok ∧ attestationReport.pseStatus = .ok
          ∧ isvPolicyPassed = true then
        call env.gcmEncrypt env.gcmEncrypt.code
        let (payload, payloadTag) := lib.rijndael128GcmEncrypt db.skKey gSecret (.zero 12)
        return { response with body := { body with payload, payloadTag } }
      else
        return response

inductive Request where
  | msg0 (env : Msg0Env) (pMsg0 : Option (List UInt8)) (msg0Size : UInt32)
  | msg1 (env : Msg1Env) (pMsg1 : Option (List UInt8)) (msg1Size : UInt32) (ppMsg2 : Bool)
  | msg3 (env : Msg3Env) (pMsg3 : Option (List UInt8)) (msg3Size : UInt32) (ppAttResultMsg : Bool)
  deriving DecidableEq, Repr

inductive Reply where
  | none
  | msg2 (msg2 : Response Msg2)
  | attResult (attResultMsg : Response AttResultMsg)
  deriving DecidableEq, Repr

def finish {α : Type} (reply : α → Reply) (x : Sp α) (s : SpState)
    : Except Fault ((Int × Reply) × SpState) :=
  match x.run s with
  | .ok a s' => .ok ((SpRaMsgStatus.ok.code, reply a), s')
  | .error (.ret code) s' => .ok ((code, .none), s')
  | .error (.fault fault) _ => .error fault

def step (lib : SampleCrypto) (s : SpState) : Request → Except Fault ((Int × Reply) × SpState)
  | .msg0 env pMsg0 msg0Size => finish (fun _ => .none) (spRaProcMsg0Req env pMsg0 msg0Size) s
  | .msg1 env pMsg1 msg1Size ppMsg2 =>
    finish .msg2 (spRaProcMsg1Req lib env pMsg1 msg1Size ppMsg2) s
  | .msg3 env pMsg3 msg3Size ppAttResultMsg =>
    finish .attResult (spRaProcMsg3Req lib env pMsg3 msg3Size ppAttResultMsg) s

end ServiceProvider
