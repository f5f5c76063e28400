import LightFS.Storage.Client

/-!
# Responses that the client cannot trust

`client_response_cb` (`src/storage_client/storage_client.c`) decodes any response, also one that no
server of this repository encodes. A READ hands out the length that is embedded in the body next to
a pointer into the body, and the two belong together only if the body is as long as it says
(`read_data_inside_iff`). The result is the first word of the body: neither the status of the
response nor the length that the call expects is looked at (`success_is_real_iff`).

## Main definitions

* `ClientCallback.result`, `ClientCallType.completeLen`.

## Main results

* `result_clientResponseCb_eq_ioSuccess_iff`.
* `read_data_inside_iff`, `success_is_real_iff`.
-/

namespace LightFS.Storage

open Library

variable {callType : ClientCallType} {status : NrpcStatus} {body : List UInt8} {transportErr : ℤ}

/-- A transfer with an error, or a body without a status word. -/
theorem clientResponseCb_of_unusable (h : transportErr ≠ 0 ∨ body.length < 4) :
    clientResponseCb callType status body transportErr = errorCallback callType := by
  rw [clientResponseCb]
  by_cases herr : transportErr ≠ 0
  · rw [if_pos herr]
  · rw [if_neg herr, if_pos (h.resolve_left herr)]

/-! ### The data of a READ -/

theorem clientResponseCb_read_of_le (hfull : 8 ≤ body.length) :
    clientResponseCb .read status body 0 = .read (UInt32.ofNat (readLe body 0 4))
      (some (body.drop 8)) (UInt32.ofNat (readLe body 4 4)) := by
  rw [clientResponseCb, if_neg (not_not.mpr rfl), if_neg (by omega)]
  exact if_pos hfull

/-- Without an error of the transfer and the two words in front of the data there is no data. -/
theorem data_clientResponseCb_read {result len : UInt32} {data : Option (List UInt8)}
    (h : clientResponseCb .read status body transportErr = .read result data len)
    (hno : transportErr ≠ 0 ∨ body.length < 8) : data = none := by
  by_cases hunusable : transportErr ≠ 0 ∨ body.length < 4
  · rw [clientResponseCb_of_unusable hunusable] at h
    exact (ClientCallback.read.inj h).2.1.symm
  · obtain ⟨herr, hword⟩ := not_or.mp hunusable
    rw [clientResponseCb, if_neg herr, if_neg hword] at h
    dsimp only at h
    rw [if_neg (Nat.not_le.mpr (hno.resolve_left herr))] at h
    exact (ClientCallback.read.inj h).2.1.symm

/-- **When a READ hands out bytes of the response.** The length next to the data is at most that of
the data if and only if the transfer failed, the body is too short to have data, or the embedded
length is not over the rest of the body. -/
theorem read_data_inside_iff (status : NrpcStatus) (body : List UInt8) (transportErr : ℤ) :
    (∀ result data len,
      clientResponseCb .read status body transportErr = .read result (some data) len →
        8 ≤ body.length ∧ data = body.drop 8 ∧ len.toNat ≤ body.length - 8) ↔
      (transportErr ≠ 0 ∨ body.length < 8 ∨ readLe body 4 4 ≤ body.length - 8) := by
  by_cases hno : transportErr ≠ 0 ∨ body.length < 8
  · refine iff_of_true (fun result data len h => ?_) (by tauto)
    cases data_clientResponseCb_read h hno
  · obtain ⟨herr, hfull⟩ := not_or.mp hno
    obtain rfl : transportErr = 0 := not_not.mp herr
    rw [clientResponseCb_read_of_le (Nat.not_lt.mp hfull)]
    constructor
    · intro h
      have hle := (h _ _ _ rfl).2.2
      rw [toNat_ofNat_readLe] at hle
      exact Or.inr (Or.inr hle)
    · intro h result data len heq
      obtain ⟨-, hdata, rfl⟩ := ClientCallback.read.inj heq
      refine ⟨Nat.not_lt.mp hfull, (Option.some.inj hdata).symm, ?_⟩
      rw [toNat_ofNat_readLe]
      tauto

/-- A body of 8 bytes that announces 100 more: the caller is given a pointer behind the body and the
length 100. -/
theorem read_data_outside :
    clientResponseCb .read .ok [0, 0, 0, 0, 100, 0, 0, 0] 0 = .read ioSuccess (some []) 100 ∧
      ¬ (100 : UInt32).toNat ≤ [(0 : UInt8), 0, 0, 0, 100, 0, 0, 0].length - 8 :=
  ⟨rfl, by decide⟩

/-! ### Success -/

/-- The result that a callback is given. -/
def ClientCallback.result : ClientCallback → UInt32
  | .simple result => result
  | .read result _ _ => result
  | .statfs result _ _ => result

/-- The length of a complete body. -/
def ClientCallType.completeLen : ClientCallType → ℕ
  | .simple => 4
  | .read => 8
  | .statfs => 20

theorem result_errorCallback (callType : ClientCallType) :
    (errorCallback callType).result = ioError := by
  cases callType <;> rfl

/-- The result is the first word of the body, whatever the call and the status are. -/
theorem result_clientResponseCb (herr : transportErr = 0) (hword : 4 ≤ body.length) :
    (clientResponseCb callType status body transportErr).result =
      UInt32.ofNat (readLe body 0 4) := by
  rw [clientResponseCb, if_neg (not_not.mpr herr), if_neg (Nat.not_lt.mpr hword)]
  cases callType
  case simple => rfl
  case read =>
    dsimp only
    split_ifs <;> rfl
  case statfs =>
    dsimp only
    split_ifs <;> rfl

/-- When the client reports a success. -/
theorem result_clientResponseCb_eq_ioSuccess_iff :
    (clientResponseCb callType status body transportErr).result = ioSuccess ↔
      transportErr = 0 ∧ 4 ≤ body.length ∧ readLe body 0 4 = 0 := by
  by_cases hno : transportErr ≠ 0 ∨ body.length < 4
  · refine iff_of_false (fun h => ?_) (by omega)
    rw [clientResponseCb_of_unusable hno, result_errorCallback] at h
    exact absurd h (by decide)
  · obtain ⟨herr, hword⟩ := not_or.mp hno
    have hzero := toNat_ofNat_readLe body 0
    rw [result_clientResponseCb (not_not.mp herr) (Nat.not_lt.mp hword), ← UInt32.toNat_inj, hzero]
    exact ⟨fun h => ⟨not_not.mp herr, Nat.not_lt.mp hword, h⟩, fun h => h.2.2⟩

/-- **When a reported success is one.** The client reports a success only for a transfer without
error, the status OK, the status word 0 and a complete body, if and only if it is not given a
transfer without error and the status word 0 with another status or an incomplete body. -/
theorem success_is_real_iff (callType : ClientCallType) (status : NrpcStatus) (body : List UInt8)
    (transportErr : ℤ) :
    ((clientResponseCb callType status body transportErr).result = ioSuccess →
      transportErr = 0 ∧ status = .ok ∧ readLe body 0 4 = 0 ∧
        callType.completeLen ≤ body.length) ↔
      ¬ (transportErr = 0 ∧ 4 ≤ body.length ∧ readLe body 0 4 = 0 ∧
        (status ≠ .ok ∨ body.length < callType.completeLen)) := by
  rw [result_clientResponseCb_eq_ioSuccess_iff]
  constructor
  · rintro h ⟨herr, hword, hzero, hbad⟩
    obtain ⟨-, hok, -, hcomplete⟩ := h ⟨herr, hword, hzero⟩
    rcases hbad with hbad | hbad
    · exact hbad hok
    · omega
  · rintro h ⟨herr, hword, hzero⟩
    by_contra hnot
    refine h ⟨herr, hword, hzero, ?_⟩
    by_contra hgood
    obtain ⟨hok, hcomplete⟩ := not_or.mp hgood
    exact hnot ⟨herr, not_not.mp hok, hzero, Nat.not_lt.mp hcomplete⟩

/-- A write that failed inside the server, with the body of a success, is reported as done, and so
is a READ whose body ends behind the status word. -/
theorem success_not_real :
    (clientResponseCb .simple .internal [0, 0, 0, 0] 0).result = ioSuccess ∧
    clientResponseCb .read .ok [0, 0, 0, 0] 0 = .read ioSuccess none 0 :=
  ⟨rfl, rfl⟩

end LightFS.Storage
