import SgxNfv.Enclave.Impl
import SgxNfv.NetworkRa.Impl
import SgxNfv.ServiceProvider.Impl.Proc

/-!
This module contains the attestation client: `enclave_init_ra` and `verify_att_result_mac` of the
enclave, and `perform_remote_attestation` of the application around it.
-/

open C Enclave
open Processor (sgxSuccess)
open NetworkRa (Network raNetworkSendReceive)
open ServiceProvider (Response AttResultMsg)
open Verifier (Frame le32)

namespace Attestation

def sgxErrorBusy : SgxStatus := 0x400a

/--
How the calls inside `enclave_init_ra` end. `createPseSession` gives the answer to each try.
-/
structure InitEnv where
  createPseSession : Nat → SgxStatus
  raInit : Except SgxError UInt32

/--
The loop around `sgx_create_pse_session`, with the number of tries before it. The counter is only
decremented where the answer is `SGX_ERROR_BUSY`.
-/
def createPseSession (env : InitEnv) (tries : Nat) : (busyRetryTimes : Nat) → SgxStatus
  | 0 => env.createPseSession tries
  | busyRetryTimes + 1 =>
    let ret := env.createPseSession tries
    if ret = sgxErrorBusy then createPseSession env (tries + 1) busyRetryTimes else ret

/--
The context that `sgx_ra_init` leaves behind `p_context`, or the error.
-/
def enclaveInitRa (env : InitEnv) (bPse : Bool) : Except SgxStatus UInt32 :=
  if bPse then
    let ret := createPseSession env 0 2
    if ret ≠ sgxSuccess then .error ret else env.raInit.mapError (·.val)
  else
    env.raInit.mapError (·.val)

/--
How the calls inside `verify_att_result_mac` end: the key of a context or an error, and the status
of the CMAC.
-/
structure MacEnv where
  getKeys : UInt32 → Except SgxError (Bytes 16)
  cmac : SgxStatus

/--
The generated stub has copied the message and the mac into the enclave.
-/
def verifyAttResultMac (rijndael128Cmac : Bytes 16 → List UInt8 → Bytes 16) (env : MacEnv)
    (context : UInt32) {messageSize macSize : Nat} (pMessage : Bytes messageSize)
    (pMac : Bytes macSize) : SgxStatus :=
  if macSize ≠ 16 then
    sgxErrorInvalidParameter
  else if 4294967295 < messageSize then
    sgxErrorInvalidParameter
  else
    match env.getKeys context with
    | .error status => status.val
    | .ok mkKey =>
      if env.cmac ≠ sgxSuccess then
        env.cmac
      else if pMac.val ≠ (rijndael128Cmac mkKey pMessage.val).val then
        sgxErrorMacMismatch
      else
        sgxSuccess

/--
A response with its header as it lies in memory. The structures are packed, and `reserved` and
`align` are zero.
-/
def attResultObject (r : Response AttResultMsg) : List UInt8 :=
  List.flatten [
    [r.type], [r.status.1, r.status.2], le32 r.size, [0], r.body.platformInfoBlob.val,
    r.body.mac.val, le32 r.body.payloadSize, (Bytes.zero 12).val, r.body.payloadTag.val,
    r.body.payload
  ]

/--
How the calls of the last part end. An ecall with a status other than `SGX_SUCCESS` does not get to
the function in the enclave.
-/
structure ResultEnv where
  verify : SgxStatus
  mac : MacEnv
  put : SgxStatus
  secret : Enclave.Env

/--
The last part of `perform_remote_attestation`: the return value, and the secret in the enclave. The
attestation result is the memory behind its pointer, and `none` stands for `NULL`.
-/
def processAttResult (rijndael128Cmac : Bytes 16 → List UInt8 → Bytes 16) (lib : SgxCrypto)
    (env : ResultEnv) (context : UInt32) (gSecret : Bytes 8)
    (pAttResultMsgFull : Option (List UInt8)) : Except Fault (Int × Bytes 8) := do
  match pAttResultMsgFull with
  | none => .error .nullPointer
  | some attResultMsg =>
    if env.verify ≠ sgxSuccess then
      return (-1, gSecret)
    let platformInfoBlob ← member attResultMsg 8 97
    let mac ← member attResultMsg 105 16
    if verifyAttResultMac rijndael128Cmac env.mac context platformInfoBlob mac ≠ sgxSuccess then
      return (-1, gSecret)
    let status ← member attResultMsg 1 2
    if status ≠ Bytes.zero 2 then
      return (-1, gSecret)
    let payloadSize := uint32 (← member attResultMsg 121 4)
    if env.put ≠ sgxSuccess then
      return (-1, gSecret)
    let payload ← member attResultMsg 153 payloadSize.toNat
    let payloadTag ← member attResultMsg 137 16
    let (ret, gSecret) := putSecretData lib gSecret {
      context, secretSize := payloadSize, pSecret := some payload, pGcmMac := some payloadTag
      env := env.secret
    }
    return (if ret ≠ sgxSuccess then -1 else 0, gSecret)

/--
How the calls in front of the attestation result end. `enclaveInitRa` is the status of the ecall, and
`align` is what the allocated request holds in its padding.
-/
structure RaEnv where
  enclaveInitRa : SgxStatus
  init : InitEnv
  getExtendedEpidGroupId : SgxStatus
  extendedEpidGroupId : UInt32
  mallocMsg0 : Bool
  align : UInt8 × UInt8 × UInt8
  mallocMsg1 : Bool
  getMsg1 : SgxStatus
  result : ResultEnv

def msg0Full (env : RaEnv) : Frame where
  type := 0
  align := env.align
  body := le32 env.extendedEpidGroupId
  fits := (by decide : 4 < UInt32.size)

/--
`slot` is what the local of `ra_network_send_receive` holds, which is not initialized. Message 1 is
composed but not sent, and the pointers to message 2 and to the attestation result stay `NULL`.
-/
def performRemoteAttestation (rijndael128Cmac : Bytes 16 → List UInt8 → Bytes 16) (lib : SgxCrypto)
    (env : RaEnv) (net : Network) (alloc : Allocator) (fuel : Nat) (slot : Option Ptr)
    (serverUrl : Option (List UInt8)) (gSecret : Bytes 8) : Option (Except Fault (Int × Bytes 8)) :=
  if env.enclaveInitRa ≠ sgxSuccess then
    some (.ok (-1, gSecret))
  else
    match enclaveInitRa env.init false with
    | .error _ => some (.ok (-1, gSecret))
    | .ok context =>
      if env.getExtendedEpidGroupId ≠ sgxSuccess then
        some (.ok (-1, gSecret))
      else if env.mallocMsg0 = false then
        some (.ok (-1, gSecret))
      else
        match raNetworkSendReceive net alloc fuel serverUrl (some (msg0Full env)) (some none) slot with
        | none => none
        | some (.error fault) => some (.error fault)
        | some (.ok outcome) =>
          if outcome.ret ≠ 0 then
            some (.ok (-1, gSecret))
          else if env.mallocMsg1 = false then
            some (.ok (-1, gSecret))
          else if env.getMsg1 ≠ sgxSuccess then
            some (.ok (-1, gSecret))
          else
            let pMsg2Full : Option (List UInt8) := none
            let pAttResultMsgFull : Option (List UInt8) := none
            match pMsg2Full with
            | none => some (.error .nullPointer)
            | some _ =>
              some (processAttResult rijndael128Cmac lib env.result context gSecret pAttResultMsgFull)

end Attestation
