import HandleTable.Proofs.Handles.Run
import HandleTable.Proofs.Verifiers.Run
import HandleTable.Server

/-!
# A server is its parts

Behind the interface of a server are three parts, each with a state of its own: the
export service, the table of handles and the table of listings.  Requests to them may
be interleaved in any way.  Here such a run is cut into its three parts, and each
part turns out to have been alone: it got the requests that are meant for it, in
their order, gave the answers that it would have given without the other two, and
was left in the state in which these requests leave it.

A run is looked at through its `transcript`, which lists every request with its
answer.  `IsPart` says of one step what `transcript_filterMap` says of a whole run;
the three parts of a server differ in nothing but the case analysis of that step.
-/

namespace HandleTable

/-! ## Transcripts -/

section Transcript

variable {S R A S' R' A' : Type}

/-- Requests with their answers, in order, from a state on. -/
def transcript (answer : S → R → A) (step : S → R → S) (state : S) : List R → List (R × A)
  | [] => []
  | request :: rest =>
    (request, answer state request) :: transcript answer step (step state request) rest

/-- **One step of a part.**  A request that is meant for the part does to it and gets
from it what it would alone; any other request leaves it as it is, and its exchange
is none with this part. -/
structure IsPart (answer : S → R → A) (step : S → R → S) (answer' : S' → R' → A')
    (step' : S' → R' → S') (view : S → S') (request? : R → Option R')
    (exchange? : R × A → Option (R' × A')) : Prop where
  step_of_some : ∀ state request request', request? request = some request' →
    view (step state request) = step' (view state) request'
  exchange_of_some : ∀ state request request', request? request = some request' →
    exchange? (request, answer state request) = some (request', answer' (view state) request')
  step_of_none : ∀ state request, request? request = none →
    view (step state request) = view state
  exchange_of_none : ∀ state request, request? request = none →
    exchange? (request, answer state request) = none

section

variable {answer : S → R → A} {step : S → R → S} {answer' : S' → R' → A'}
  {step' : S' → R' → S'} {view : S → S'} {request? : R → Option R'}
  {exchange? : R × A → Option (R' × A')}

/-- The exchanges with a part are the transcript of the part alone. -/
theorem IsPart.transcript_filterMap
    (hpart : IsPart answer step answer' step' view request? exchange?) (state : S)
    (requests : List R) :
    (transcript answer step state requests).filterMap exchange? =
      transcript answer' step' (view state) (requests.filterMap request?) := by
  induction requests generalizing state with
  | nil => rfl
  | cons request rest ih =>
      rw [transcript]
      cases hrequest : request? request with
      | none =>
          rw [List.filterMap_cons_none (hpart.exchange_of_none state request hrequest),
            List.filterMap_cons_none hrequest, ih, hpart.step_of_none state request hrequest]
      | some request' =>
          rw [List.filterMap_cons_some (hpart.exchange_of_some state request request' hrequest),
            List.filterMap_cons_some hrequest, ih, transcript,
            hpart.step_of_some state request request' hrequest]

/-- A run leaves a part in the state in which it leaves it alone. -/
theorem IsPart.view_foldl (hpart : IsPart answer step answer' step' view request? exchange?)
    (state : S) (requests : List R) :
    view (requests.foldl step state) =
      (requests.filterMap request?).foldl step' (view state) := by
  induction requests generalizing state with
  | nil => rfl
  | cons request rest ih =>
      rw [List.foldl_cons, ih]
      cases hrequest : request? request with
      | none =>
          rw [List.filterMap_cons_none hrequest, hpart.step_of_none state request hrequest]
      | some request' =>
          rw [List.filterMap_cons_some hrequest, List.foldl_cons,
            hpart.step_of_some state request request' hrequest]

end

end Transcript

/-! ## The parts alone -/

section Parts

variable {ι σ : Type}

/-- What the table of handles answers. -/
inductive Handles.Answer (σ : Type) where
  | minted (handle : Handle)
  | resolved (result : Except HandleError (Target σ))
  | changed (result : Except HandleError Unit)

/-- The answer to a request to the table of handles. -/
def Handles.answer (table : Handles σ) : Handles.Step σ → Handles.Answer σ
  | .mint handle _ _ => .minted handle
  | .resolve wire => .resolved (table.resolve wire).1
  | .rename directory old new => .changed (table.rename directory old new).1
  | .rebind wire store path => .changed (table.rebind wire store path).1

/-- What the table of listings answers; the number of dropped snapshots is not passed on. -/
inductive Verifiers.Answer where
  | kept (verifier : Verifier)
  | found (listing : Option Listing)
  | dropped

/-- The answer to a request to the table of listings. -/
def Verifiers.answer (table : Verifiers) : Verifiers.Step → Verifiers.Answer
  | .snapshot path listing => .kept (table.snapshot path listing).1
  | .lookup _ verifier => .found (table.lookup verifier).1
  | .invalidate _ => .dropped

namespace ExportService

/-- A call to an export service. -/
inductive Call (σ : Type) where
  | mount (name : String)
  | usage (store : σ) (path : Path)

/-- What an export service answers. -/
inductive Answer (σ : Type) where
  | mounted (result : Except Failure σ)
  | usage (result : Except Failure Usage)

/-- The answer to a call. -/
def answer (service : ExportService ι σ) (inner : ι) : Call σ → Answer σ
  | .mount name => .mounted (service.mount name inner).1
  | .usage store path => .usage (service.usage store path inner).1

/-- The state of the service after a call. -/
def step (service : ExportService ι σ) (inner : ι) : Call σ → ι
  | .mount name => (service.mount name inner).2
  | .usage store path => (service.usage store path inner).2

/-- A service that also records its calls; its answers are the same. -/
def recorded (service : ExportService ι σ) : ExportService (ι × List (Call σ)) σ where
  mount name state :=
    ((service.mount name state.1).1, (service.mount name state.1).2, state.2 ++ [.mount name])
  usage store path state :=
    ((service.usage store path state.1).1, (service.usage store path state.1).2,
      state.2 ++ [.usage store path])

theorem step_recorded (service : ExportService ι σ) (inner : ι) (record : List (Call σ))
    (call : Call σ) :
    service.recorded.step (inner, record) call = (service.step inner call, record ++ [call]) := by
  cases call <;> rfl

theorem foldl_recorded (service : ExportService ι σ) (inner : ι) (record calls : List (Call σ)) :
    calls.foldl service.recorded.step (inner, record) =
      (calls.foldl service.step inner, record ++ calls) := by
  induction calls generalizing inner record with
  | nil => rw [List.append_nil]; rfl
  | cons call rest ih =>
      rw [List.foldl_cons, step_recorded, ih, List.append_assoc]
      rfl

end ExportService

end Parts

/-! ## The parts together -/

namespace Server

variable {ι σ : Type}

/-- A request to a server: one for the export service, one about handles, or one about
listings.  The handle that is minted comes from outside. -/
inductive Request (σ : Type) where
  | service (call : ExportService.Call σ)
  | handles (request : Handles.Step σ)
  | verifiers (request : Verifiers.Step)

/-- What a server answers. -/
inductive Answer (σ : Type) where
  | service (answer : ExportService.Answer σ)
  | handles (answer : Handles.Answer σ)
  | verifiers (answer : Verifiers.Answer)

/-- Performs one request: the answer, and the server afterwards. -/
def perform (service : ExportService ι σ) (server : Server ι σ) :
    Request σ → Answer σ × Server ι σ
  | .service (.mount name) =>
    (.service (.mounted (server.mount service name).1), (server.mount service name).2)
  | .service (.usage store path) =>
    (.service (.usage (server.usage service store path).1), (server.usage service store path).2)
  | .handles (.mint handle store path) =>
    (.handles (.minted handle), server.toHandle handle store path)
  | .handles (.resolve wire) =>
    (.handles (.resolved (server.fromHandle wire).1), (server.fromHandle wire).2)
  | .handles (.rename directory old new) =>
    (.handles (.changed (server.renameHandle directory old new).1),
      (server.renameHandle directory old new).2)
  | .handles (.rebind wire store path) =>
    (.handles (.changed (server.rebindHandle wire store path).1),
      (server.rebindHandle wire store path).2)
  | .verifiers (.snapshot path listing) =>
    (.verifiers (.kept (server.verifierFor path listing).1), (server.verifierFor path listing).2)
  | .verifiers (.lookup _ verifier) =>
    (.verifiers (.found (server.dataForVerifier verifier).1), (server.dataForVerifier verifier).2)
  | .verifiers (.invalidate path) =>
    (.verifiers .dropped, server.invalidateVerifier path)

/-- The answer to a request. -/
def answer (service : ExportService ι σ) (server : Server ι σ) (request : Request σ) : Answer σ :=
  (server.perform service request).1

/-- The server after a request. -/
def step (service : ExportService ι σ) (server : Server ι σ) (request : Request σ) : Server ι σ :=
  (server.perform service request).2

/-- The server after a list of requests. -/
def run (service : ExportService ι σ) (server : Server ι σ) (requests : List (Request σ)) :
    Server ι σ :=
  requests.foldl (step service) server

/-- The requests of a run with the answers to them. -/
def exchanges (service : ExportService ι σ) (server : Server ι σ) (requests : List (Request σ)) :
    List (Request σ × Answer σ) :=
  transcript (answer service) (step service) server requests

namespace Request

/-- The call to the export service that a request is. -/
def service? : Request σ → Option (ExportService.Call σ)
  | service call => some call
  | _ => none

/-- The request about handles that a request is. -/
def handles? : Request σ → Option (Handles.Step σ)
  | handles request => some request
  | _ => none

/-- The request about listings that a request is. -/
def verifiers? : Request σ → Option Verifiers.Step
  | verifiers request => some request
  | _ => none

end Request

/-- The exchange with the export service that an exchange with the server is. -/
def serviceExchange? : Request σ × Answer σ → Option (ExportService.Call σ × ExportService.Answer σ)
  | (.service call, .service answer) => some (call, answer)
  | _ => none

/-- The exchange with the table of handles that an exchange with the server is. -/
def handlesExchange? : Request σ × Answer σ → Option (Handles.Step σ × Handles.Answer σ)
  | (.handles request, .handles answer) => some (request, answer)
  | _ => none

/-- The exchange with the table of listings that an exchange with the server is. -/
def verifiersExchange? : Request σ × Answer σ → Option (Verifiers.Step × Verifiers.Answer)
  | (.verifiers request, .verifiers answer) => some (request, answer)
  | _ => none

/-! ## One request -/

theorem isPart_service (service : ExportService ι σ) :
    IsPart (answer service) (step service) service.answer service.step inner Request.service?
      serviceExchange? where
  step_of_some server request call hrequest := by
    obtain rfl : request = .service call := by cases request <;> cases hrequest; rfl
    cases call <;> rfl
  exchange_of_some server request call hrequest := by
    obtain rfl : request = .service call := by cases request <;> cases hrequest; rfl
    cases call <;> rfl
  step_of_none server request hrequest := by
    rcases request with call | request | request
    · cases hrequest
    · cases request <;> rfl
    · cases request <;> rfl
  exchange_of_none server request hrequest := by
    rcases request with call | request | request
    · cases hrequest
    · cases request <;> rfl
    · cases request <;> rfl

theorem isPart_handles (service : ExportService ι σ) :
    IsPart (answer service) (step service) Handles.answer Handles.step handles Request.handles?
      handlesExchange? where
  step_of_some server request about hrequest := by
    obtain rfl : request = .handles about := by cases request <;> cases hrequest; rfl
    cases about <;> rfl
  exchange_of_some server request about hrequest := by
    obtain rfl : request = .handles about := by cases request <;> cases hrequest; rfl
    cases about <;> rfl
  step_of_none server request hrequest := by
    rcases request with call | request | request
    · cases call <;> rfl
    · cases hrequest
    · cases request <;> rfl
  exchange_of_none server request hrequest := by
    rcases request with call | request | request
    · cases call <;> rfl
    · cases hrequest
    · cases request <;> rfl

theorem isPart_verifiers (service : ExportService ι σ) :
    IsPart (answer service) (step service) Verifiers.answer Verifiers.step verifiers
      Request.verifiers? verifiersExchange? where
  step_of_some server request about hrequest := by
    obtain rfl : request = .verifiers about := by cases request <;> cases hrequest; rfl
    cases about <;> rfl
  exchange_of_some server request about hrequest := by
    obtain rfl : request = .verifiers about := by cases request <;> cases hrequest; rfl
    cases about <;> rfl
  step_of_none server request hrequest := by
    rcases request with call | request | request
    · cases call <;> rfl
    · cases request <;> rfl
    · cases hrequest
  exchange_of_none server request hrequest := by
    rcases request with call | request | request
    · cases call <;> rfl
    · cases request <;> rfl
    · cases hrequest

/-! ## Whole runs -/

/-- **The parts of a server do not interfere.**  Take any server, any export service and
any interleaving of requests.

* The requests about handles get the answers that the table of handles gives alone,
  and leave the table that they leave alone; and so do those about listings.
* The calls to the service get the answers of the service, failures included, and
  leave its state as they leave it alone.
* A service that records its calls has recorded exactly these, in order. -/
theorem parts_do_not_interfere (service : ExportService ι σ) (server : Server ι σ)
    (requests : List (Request σ)) :
    let calls := requests.filterMap Request.service?
    let aboutHandles := requests.filterMap Request.handles?
    let aboutListings := requests.filterMap Request.verifiers?
    let exchanges := server.exchanges service requests
    let after := server.run service requests
    (exchanges.filterMap handlesExchange? =
        transcript Handles.answer Handles.step server.handles aboutHandles ∧
      after.handles = server.handles.run aboutHandles) ∧
    (exchanges.filterMap verifiersExchange? =
        transcript Verifiers.answer Verifiers.step server.verifiers aboutListings ∧
      after.verifiers = server.verifiers.run aboutListings) ∧
    (exchanges.filterMap serviceExchange? =
        transcript service.answer service.step server.inner calls ∧
      after.inner = calls.foldl service.step server.inner) ∧
    ∀ record, (run service.recorded ⟨(server.inner, record), server.handles, server.verifiers⟩
      requests).inner = (after.inner, record ++ calls) := by
  intro calls aboutHandles aboutListings exchanges after
  have hinner : after.inner = calls.foldl service.step server.inner :=
    (isPart_service service).view_foldl server requests
  refine ⟨⟨?_, ?_⟩, ⟨?_, ?_⟩, ⟨?_, hinner⟩, ?_⟩
  · exact (isPart_handles service).transcript_filterMap server requests
  · exact (isPart_handles service).view_foldl server requests
  · exact (isPart_verifiers service).transcript_filterMap server requests
  · exact (isPart_verifiers service).view_foldl server requests
  · exact (isPart_service service).transcript_filterMap server requests
  · intro record
    calc (run service.recorded ⟨(server.inner, record), server.handles, server.verifiers⟩
          requests).inner
        = calls.foldl service.recorded.step (server.inner, record) :=
          (isPart_service service.recorded).view_foldl _ requests
      _ = (calls.foldl service.step server.inner, record ++ calls) :=
          service.foldl_recorded server.inner record calls
      _ = (after.inner, record ++ calls) := by rw [hinner]

end Server

end HandleTable
