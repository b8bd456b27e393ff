import SgxNfv.Verifier.Impl

/-!
This module contains the verification of the verifier's receive loop against the frames of the
client.
-/

open PyStruct

namespace Verifier

/--
The loop ends with the fields of the frame.
-/
def Decodes (chunks : List (List UInt8)) (f : Frame) : Prop :=
  ∃ fuel align, receive fuel chunks = some (.ok (some {
    messageType := .int f.type.toNat, size := .int f.body.length, align, body := .str f.body
  }))

@[simp]
theorem length_le32 (n : UInt32) : (le32 n).length = 4 := rfl

theorem calcsize_requestFormat (n : Nat)
    : calcsize (requestFormat n) = requestStructSize + n + 3 := by
  -- The integer is aligned, which puts three bytes in front of it that the packed header lacks.
  simp [calcsize, requestFormat, calcsizeFrom, Item.place, Item.alignment, Item.size,
    requestStructSize]
  omega

theorem unpackRequest_eq_error (bytes : List UInt8) (n : Nat)
    : unpackRequest (requestFormat n) bytes
        =
      .error (if bytes.length = requestStructSize + n + 3 then .valueError else .structError) := by
  have hlen : (requestFormat n).length ≠ 4 := by simp [requestFormat]
  unfold unpackRequest
  rw [unpack_assign4 hlen, calcsize_requestFormat]
  rfl

theorem recvBody_eq_error (s : RecvState)
    : recvBody s
        =
      .error (if (s.receivedRequestTotal ++ s.net.headD []).length = 12 then
        .valueError
      else
        .structError) := by
  -- The format has six values for four names, and only a string of twelve bytes gets that far.
  have hformat : headerFormat = requestFormat 1 := rfl
  unfold recvBody
  simp only [hformat, unpackRequest_eq_error, Except.error_bind]
  rfl

theorem receive_eq_error (fuel : Nat) (chunks : List (List UInt8))
    : receive (fuel + 1) chunks
        =
      some (.error (if (chunks.headD []).length = 12 then .valueError else .structError)) :=
  While.exec_fail (recvBody_eq_error _) fuel

theorem handleConnection_not_decodes (f : Frame) (chunks : List (List UInt8))
    : ¬ Decodes chunks f := by
  rintro ⟨fuel, align, hexec⟩
  have hfail := receive_eq_error fuel chunks
  rw [receive, While.exec_succ hexec] at hfail
  simp at hfail

def msg0Frame : Frame where
  type := 0
  align := (0, 0, 0)
  body := [0, 0, 0, 0]
  fits := by decide

theorem not_decodes_msg0 : ¬ Decodes [msg0Frame.bytes] msg0Frame := by
  rintro ⟨fuel, align, hexec⟩
  have hfail := receive_eq_error fuel [msg0Frame.bytes]
  rw [receive, While.exec_succ hexec] at hfail
  simp at hfail

end Verifier
