import CypherSyntax.Machine
import CypherSyntax.Session.Handshake

/-!
# The system

Any number of handshakes and sessions of any number of identities (`SessionFactory`, the two pending
handshakes and `SessionState` of session.py). An event is one call of the library. Its arguments are
arbitrary: a message may be one that was sent, at any time before, or one that nobody sent, and an
identity may be anyone's.

* There is no network: whoever calls the library passes messages on, or others in their place. A
  party that does not use the library is the messages that it sends.
* A call is one step. Calls of several threads that overlap are in `System/Concurrent.lean`.
* The state keeps, for each handshake, what it was built with, what it holds and what its
  completion has returned. The log keeps the calls of the cryptography package.

Results:
* `perform_does`: what an event can do.
-/

namespace CypherSyntax

open Python Json

/-! ## Lists -/

/-- What is modified to itself is not modified. -/
theorem modify_self {α : Type} {f : α → α} {l : List α} {i : Nat}
    (h : ∀ a, l[i]? = some a → f a = a) : l.modify i f = l := by
  refine List.ext_getElem? fun j => ?_
  rw [List.getElem?_modify]
  by_cases hij : i = j
  · subst hij
    cases hget : l[i]? with
    | none => simp
    | some a => simp [h a hget]
  · simp only [if_neg hij]
    simp

theorem getElem?_set_cases {α : Type} {l : List α} {a b : α} {i j : Nat}
    (h : (l.set i a)[j]? = some b) : l[j]? = some b ∨ i = j ∧ b = a := by
  rw [List.getElem?_set] at h
  by_cases hij : i = j
  · rw [if_pos hij] at h
    by_cases hi : i < l.length
    · rw [if_pos hi] at h
      exact Or.inr ⟨hij, (Option.some.inj h).symm⟩
    · rw [if_neg hi] at h
      cases h
  · rw [if_neg hij] at h
    exact Or.inl h

/-- Lists that agree in a field have the same fields. -/
theorem map_eq_of_getElem? {α β : Type} {f : α → β} {l l' : List α} (hlen : l'.length = l.length)
    (h : ∀ (i : Nat) (a : α), l[i]? = some a → ∃ b, l'[i]? = some b ∧ f b = f a) :
    l'.map f = l.map f := by
  refine List.ext_getElem? fun i => ?_
  rw [List.getElem?_map, List.getElem?_map]
  cases hget : l[i]? with
  | none =>
    have hout := List.getElem?_eq_none_iff.mp hget
    rw [List.getElem?_eq_none_iff.mpr (hlen ▸ hout)]
  | some a =>
    obtain ⟨b, hb, hf⟩ := h i a hget
    rw [hb, Option.map_some, Option.map_some, hf]

variable [Interpreter] [Crypto]

/-! ## Records -/

/-- What a call of `InitiatorHandshake.complete` was given and returned. -/
structure Completion where
  response : HandshakeResponse
  confirmation : HandshakeConfirmation
  /-- The returned session, as it is now. -/
  session : SessionState

/-- A call of `SessionFactory.initiator` and what became of it. -/
structure InitiatorRecord where
  handshake : InitiatorHandshake
  completion : Option Completion

/-- A call of `SessionFactory.responder` and what became of it. -/
structure ResponderRecord where
  localIdentity : Identity
  supplementalSecret : Bytes
  /-- The handshake as it was returned. -/
  produced : ResponderHandshake
  handshake : ResponderHandshake
  session : Option SessionState

structure System where
  initiators : List InitiatorRecord
  responders : List ResponderRecord

/-- Who holds a session. -/
inductive Handle where
  | initiator (index : Nat)
  | responder (index : Nat)
  deriving DecidableEq

namespace System

def empty : System := ⟨[], []⟩

def setInitiator (s : System) (index : Nat) (record : InitiatorRecord) : System :=
  { s with initiators := s.initiators.set index record }

def setResponder (s : System) (index : Nat) (record : ResponderRecord) : System :=
  { s with responders := s.responders.set index record }

def session? (s : System) : Handle → Option SessionState
  | .initiator index => s.initiators[index]?.bind fun r => r.completion.map Completion.session
  | .responder index => s.responders[index]?.bind ResponderRecord.session

def setSession (s : System) (handle : Handle) (session : SessionState) : System :=
  match handle with
  | .initiator index => { s with initiators := s.initiators.modify index fun r =>
      { r with completion := r.completion.map fun c => { c with session := session } } }
  | .responder index => { s with responders := s.responders.modify index fun r =>
      { r with session := r.session.map fun _ => session } }

end System

/-! ## Events -/

inductive Event where
  | initiator (localIdentity : Identity) (remoteName : Str) (remoteSigningPublicKey : Bytes)
    (suite : AeadSuite) (supplementalSecret : Bytes) (localEphemeral : Crypto.ExchangeKey)
  | responder (localIdentity : Identity) (remoteSigningPublicKey : Bytes) (offer : HandshakeOffer)
    (supplementalSecret : Bytes) (localEphemeral : Crypto.ExchangeKey)
  | completeInitiator (index : Nat) (response : HandshakeResponse)
  | completeResponder (index : Nat) (confirmation : HandshakeConfirmation)
  | encrypt (handle : Handle) (plaintext : Value)
  | decrypt (handle : Handle) (blob : Value)

/-- What a call returns. -/
inductive Answer where
  | offered (pending : InitiatorHandshake)
  | responded (response : HandshakeResponse) (pending : ResponderHandshake)
  | completed (confirmation : HandshakeConfirmation) (session : SessionState)
  | accepted (session : SessionState)
  | packet (blob : Bytes)
  | plaintext (data : Bytes)
  /-- There is no such object. -/
  | absent

def InitiatorRecord.complete (response : HandshakeResponse) :
    Method ErrorClass InitiatorRecord Call Answer := do
  let (confirmation, session) ← Method.zoom InitiatorRecord.handshake
    (fun h r => { r with handshake := h }) (InitiatorHandshake.complete response)
  Method.update fun r => { r with completion := some ⟨response, confirmation, session⟩ }
  return .completed confirmation session

def ResponderRecord.complete (confirmation : HandshakeConfirmation) :
    Method ErrorClass ResponderRecord Call Answer := do
  let session ← Method.zoom ResponderRecord.handshake
    (fun h r => { r with handshake := h }) (ResponderHandshake.complete confirmation)
  Method.update fun r => { r with session := some session }
  return .accepted session

namespace System

def perform : Event → Method ErrorClass System Call Answer
  | .initiator localIdentity remoteName remoteSigningPublicKey suite supplementalSecret
      localEphemeral => do
    let pending ← SessionFactory.initiator localIdentity remoteName remoteSigningPublicKey suite
      supplementalSecret localEphemeral
    Method.update fun s => { s with initiators := s.initiators ++ [⟨pending, none⟩] }
    return .offered pending
  | .responder localIdentity remoteSigningPublicKey offer supplementalSecret localEphemeral => do
    let (response, pending) ← SessionFactory.responder localIdentity remoteSigningPublicKey offer
      supplementalSecret localEphemeral
    Method.update fun s => { s with responders := s.responders ++
      [⟨localIdentity, supplementalSecret, pending, pending, none⟩] }
    return .responded response pending
  | .completeInitiator index response =>
    Method.zoomOption (·.initiators[index]?) (fun r s => s.setInitiator index r) .absent
      (InitiatorRecord.complete response)
  | .completeResponder index confirmation =>
    Method.zoomOption (·.responders[index]?) (fun r s => s.setResponder index r) .absent
      (ResponderRecord.complete confirmation)
  | .encrypt handle plaintext =>
    Method.zoomOption (·.session? handle) (fun session s => s.setSession handle session) .absent do
      let blob ← SessionState.encrypt plaintext
      return .packet blob
  | .decrypt handle blob =>
    Method.zoomOption (·.session? handle) (fun session s => s.setSession handle session) .absent do
      let data ← SessionState.decrypt blob
      return .plaintext data

def step (s : Frame System Call) (e : Event) : Except PyError Answer × Frame System Call :=
  (perform e).run s

def start : Frame System Call := ⟨empty, []⟩

/-- The state after a list of events. -/
def reached (es : List Event) : Frame System Call := (Machine.run step start es).2

/-! ## Sessions -/

theorem setInitiator_self {s : System} {i : Nat} {record : InitiatorRecord}
    (h : s.initiators[i]? = some record) : s.setInitiator i record = s := by
  obtain ⟨hi, hget⟩ := List.getElem?_eq_some_iff.mp h
  subst hget
  unfold setInitiator
  rw [List.set_getElem_self]

theorem setResponder_self {s : System} {i : Nat} {record : ResponderRecord}
    (h : s.responders[i]? = some record) : s.setResponder i record = s := by
  obtain ⟨hi, hget⟩ := List.getElem?_eq_some_iff.mp h
  subst hget
  unfold setResponder
  rw [List.set_getElem_self]

theorem setSession_self {s : System} {handle : Handle} {session : SessionState}
    (h : s.session? handle = some session) : s.setSession handle session = s := by
  cases handle with
  | initiator i =>
    unfold setSession
    simp only
    rw [modify_self]
    intro record hrecord
    simp only [session?, hrecord, Option.bind_some, Option.map_eq_some_iff] at h
    obtain ⟨c, hc, rfl⟩ := h
    cases record
    cases hc
    rfl
  | responder j =>
    unfold setSession
    simp only
    rw [modify_self]
    intro record hrecord
    simp only [session?, hrecord, Option.bind_some] at h
    cases record
    cases h
    rfl

/-! ## What an event can do -/

theorem completeInitiator_runs (response : HandshakeResponse)
    (s : Frame InitiatorRecord Call) : Runs (InitiatorRecord.complete response) s
      (fun answer t => ∃ privateKey shared suite rootKey c,
        s.self.handshake.ephemeralPrivateKey = some privateKey ∧
        s.self.handshake.Accepts privateKey response shared ∧ response.suite = suite.value ∧
        rootKey = rootOf s.self.handshake.offer response shared
          s.self.handshake.supplementalSecret ∧
        c = ⟨response, s.self.handshake.confirmation response rootKey,
          s.self.handshake.session response suite rootKey⟩ ∧
        answer = .completed c.confirmation c.session ∧
        t = ⟨⟨{ s.self.handshake with ephemeralPrivateKey := none }, some c⟩,
          s.log ++ s.self.handshake.completeCalls response shared⟩)
      fun _ t => t.self = s.self ∧ Extends Call.Silent s.log t.log := by
  unfold InitiatorRecord.complete
  have hrun := InitiatorHandshake.complete_runs response ⟨s.self.handshake, s.log⟩
  refine .bind (Q := fun result t => ∃ privateKey shared suite rootKey,
    s.self.handshake.ephemeralPrivateKey = some privateKey ∧
    s.self.handshake.Accepts privateKey response shared ∧ response.suite = suite.value ∧
    rootKey = rootOf s.self.handshake.offer response shared s.self.handshake.supplementalSecret ∧
    result = (s.self.handshake.confirmation response rootKey,
      s.self.handshake.session response suite rootKey) ∧
    t = ⟨{ s.self with handshake := { s.self.handshake with ephemeralPrivateKey := none } },
      s.log ++ s.self.handshake.completeCalls response shared⟩) (.zoom (hrun.mono ?_ ?_)) ?_
  · rintro result _ ⟨privateKey, shared, suite, hkey, haccepts, hsuite, rfl, rfl⟩
    exact ⟨privateKey, shared, suite, _, hkey, haccepts, hsuite, rfl, rfl, rfl⟩
  · rintro _ t ⟨hself, hlog, -⟩
    exact ⟨by rw [hself], hlog⟩
  · rintro _ _ ⟨privateKey, shared, suite, rootKey, hkey, haccepts, hsuite, hroot, rfl, rfl⟩
    exact .bind_run (Method.run_update _ _)
      (.pure ⟨privateKey, shared, suite, rootKey, _, hkey, haccepts, hsuite, hroot, rfl, rfl, rfl⟩)

theorem completeResponder_runs (confirmation : HandshakeConfirmation)
    (s : Frame ResponderRecord Call) : Runs (ResponderRecord.complete confirmation) s
      (fun answer t => ∃ rootKey, s.self.handshake.rootKey = some rootKey ∧
        s.self.handshake.Accepts rootKey confirmation ∧
        answer = .accepted (s.self.handshake.session rootKey) ∧
        t = ⟨{ s.self with
            handshake := { s.self.handshake with rootKey := none },
            session := some (s.self.handshake.session rootKey) },
          s.log ++ s.self.handshake.completeCalls rootKey confirmation⟩)
      fun _ t => t.self = s.self ∧ Extends Call.Silent s.log t.log := by
  unfold ResponderRecord.complete
  have hrun := ResponderHandshake.complete_runs confirmation ⟨s.self.handshake, s.log⟩
  refine .bind (Q := fun session t => ∃ rootKey, s.self.handshake.rootKey = some rootKey ∧
    s.self.handshake.Accepts rootKey confirmation ∧ session = s.self.handshake.session rootKey ∧
    t = ⟨{ s.self with handshake := { s.self.handshake with rootKey := none } },
      s.log ++ s.self.handshake.completeCalls rootKey confirmation⟩) (.zoom (hrun.mono ?_ ?_)) ?_
  · rintro session _ ⟨rootKey, hroot, haccepts, rfl, rfl⟩
    exact ⟨rootKey, hroot, haccepts, rfl, rfl⟩
  · rintro _ t ⟨hself, hlog, -⟩
    exact ⟨by rw [hself], hlog⟩
  · rintro _ _ ⟨rootKey, hroot, haccepts, rfl, rfl⟩
    exact .bind_run (Method.run_update _ _) (.pure ⟨rootKey, hroot, haccepts, rfl, rfl⟩)

/-- What an event can do, and what it answers. -/
inductive Does (s : Frame System Call) :
    Event → Except PyError Answer → Frame System Call → Prop where
  /-- A call that raised, or had no object. A key that it generated is lost. -/
  | rejected {e : Event} {result : Except PyError Answer} {t : Frame System Call} :
    (∀ answer, result = .ok answer → answer = .absent) → t.self = s.self →
    Extends (fun c => c.Silent ∨ ∃ publicKey, c = .generated publicKey) s.log t.log →
    Does s e result t
  | offered {localIdentity : Identity} {remoteName : Str} {remoteSigningPublicKey : Bytes}
    {suite : AeadSuite} {supplementalSecret : Bytes} {localEphemeral : Crypto.ExchangeKey}
    {fields : OfferFields} {pending : InitiatorHandshake} :
    SessionFactory.Offers localIdentity remoteName suite localEphemeral fields →
    pending = ⟨localIdentity, remoteSigningPublicKey,
      SessionFactory.offerOf localIdentity fields, supplementalSecret, some localEphemeral⟩ →
    Does s (.initiator localIdentity remoteName remoteSigningPublicKey suite supplementalSecret
      localEphemeral) (.ok (.offered pending))
      ⟨{ s.self with initiators := s.self.initiators ++ [⟨pending, none⟩] },
        s.log ++ [.generated (Crypto.exchangePublic localEphemeral),
          .signed localIdentity.ed25519PublicBytes (offerPayload fields)]⟩
  | responded {localIdentity : Identity} {remoteSigningPublicKey : Bytes} {offer : HandshakeOffer}
    {supplementalSecret : Bytes} {localEphemeral : Crypto.ExchangeKey} {shared : Bytes}
    {suite : AeadSuite} {response : HandshakeResponse} {pending : ResponderHandshake} :
    SessionFactory.Accepts localIdentity remoteSigningPublicKey offer localEphemeral shared →
    offer.suite = suite.value →
    SessionFactory.Responds localIdentity offer localEphemeral
      (rootOf offer response shared supplementalSecret) response →
    pending = ⟨remoteSigningPublicKey, offer, response, suite,
      some (rootOf offer response shared supplementalSecret)⟩ →
    Does s (.responder localIdentity remoteSigningPublicKey offer supplementalSecret
      localEphemeral) (.ok (.responded response pending))
      ⟨{ s.self with responders := s.self.responders ++
          [⟨localIdentity, supplementalSecret, pending, pending, none⟩] },
        s.log ++ SessionFactory.responderCalls localIdentity offer localEphemeral response shared
          supplementalSecret⟩
  | completed {i : Nat} {record : InitiatorRecord} {response : HandshakeResponse}
    {privateKey : Crypto.ExchangeKey} {shared rootKey : Bytes} {suite : AeadSuite}
    {c : Completion} :
    s.self.initiators[i]? = some record →
    record.handshake.ephemeralPrivateKey = some privateKey →
    record.handshake.Accepts privateKey response shared → response.suite = suite.value →
    rootKey = rootOf record.handshake.offer response shared record.handshake.supplementalSecret →
    c = ⟨response, record.handshake.confirmation response rootKey,
      record.handshake.session response suite rootKey⟩ →
    Does s (.completeInitiator i response) (.ok (.completed c.confirmation c.session))
      ⟨s.self.setInitiator i ⟨{ record.handshake with ephemeralPrivateKey := none }, some c⟩,
        s.log ++ record.handshake.completeCalls response shared⟩
  | accepted {j : Nat} {record : ResponderRecord} {confirmation : HandshakeConfirmation}
    {rootKey : Bytes} :
    s.self.responders[j]? = some record → record.handshake.rootKey = some rootKey →
    record.handshake.Accepts rootKey confirmation →
    Does s (.completeResponder j confirmation)
      (.ok (.accepted (record.handshake.session rootKey)))
      ⟨s.self.setResponder j { record with
          handshake := { record.handshake with rootKey := none },
          session := some (record.handshake.session rootKey) },
        s.log ++ record.handshake.completeCalls rootKey confirmation⟩
  | sent {handle : Handle} {session : SessionState} {plaintext packet ciphertext : Bytes}
    {call : AeadCall} :
    s.self.session? handle = some session → session.Sends plaintext call →
    call.result = some ciphertext →
    ((session.sendMetadata session.sendSequence).envelope ciphertext).toBytes = .ok packet →
    Does s (.encrypt handle (.bytes plaintext)) (.ok (.packet packet))
      ⟨s.self.setSession handle session.advance, s.log ++ session.sendCalls call⟩
  /-- The AEAD raised. -/
  | unsealed {handle : Handle} {session : SessionState} {plaintext : Bytes} {call : AeadCall}
    {exc : PyError} :
    s.self.session? handle = some session → session.Sends plaintext call → call.result = none →
    Does s (.encrypt handle (.bytes plaintext)) (.error exc)
      ⟨s.self, s.log ++ session.sendCalls call⟩
  | opened {handle : Handle} {session : SessionState} {blob : Value} {n : Int} {call : AeadCall}
    {plaintext : Bytes} :
    s.self.session? handle = some session → session.Opens blob n call →
    call.result = some plaintext →
    Does s (.decrypt handle blob) (.ok (.plaintext plaintext))
      ⟨s.self.setSession handle (session.accept n), s.log ++ session.receiveCalls n call⟩

theorem Does.raised {s t : Frame System Call} {e : Event} {exc : PyError} (hself : t.self = s.self)
    (hlog : Extends (fun c => c.Silent ∨ ∃ publicKey, c = .generated publicKey) s.log t.log) :
    Does s e (.error exc) t :=
  .rejected (fun _ h => by cases h) hself hlog

theorem Does.missing {s : Frame System Call} {e : Event} : Does s e (.ok .absent) s :=
  .rejected (fun _ h => (Except.ok.inj h).symm) rfl (.refl _ _)

/-- **What an event can do.** -/
theorem perform_does (s : Frame System Call) (e : Event) :
    Runs (perform e) s (fun answer t => Does s e (.ok answer) t)
      fun exc t => Does s e (.error exc) t := by
  cases e with
  | initiator localIdentity remoteName remoteSigningPublicKey suite supplementalSecret
      localEphemeral =>
    refine (SessionFactory.initiator_runs localIdentity remoteName remoteSigningPublicKey suite
      supplementalSecret localEphemeral s).bind' ?_ ?_
    · rintro pending t ⟨fields, hoffers, hpending, rfl⟩
      exact .bind_run (Method.run_update _ _) (.pure (.offered hoffers hpending))
    · rintro _ t ⟨rfl, -⟩
      exact .raised rfl (.single (Or.inr ⟨_, rfl⟩))
  | responder localIdentity remoteSigningPublicKey offer supplementalSecret localEphemeral =>
    refine (SessionFactory.responder_runs localIdentity remoteSigningPublicKey offer
      supplementalSecret localEphemeral s).bind' ?_ ?_
    · rintro _ t ⟨shared, suite, response, haccepts, hsuite, hresponds, rfl, rfl⟩
      exact .bind_run (Method.run_update _ _)
        (.pure (.responded haccepts hsuite hresponds rfl))
    · rintro _ t ⟨hself, hlog, -⟩
      exact .raised hself (hlog.mono fun c hc => hc.imp_right fun h => ⟨_, h⟩)
  | completeInitiator i response =>
    refine .zoomOption (fun _ => .missing) fun record hrecord => ?_
    refine (completeInitiator_runs response ⟨record, s.log⟩).mono ?_ ?_
    · rintro _ _ ⟨privateKey, shared, suite, rootKey, c, hkey, haccepts, hsuite, hroot, hc, rfl,
        rfl⟩
      exact .completed hrecord hkey haccepts hsuite hroot hc
    · rintro _ t ⟨hself, hlog⟩
      exact .raised (by rw [hself]; exact setInitiator_self hrecord) (hlog.mono fun _ => Or.inl)
  | completeResponder j confirmation =>
    refine .zoomOption (fun _ => .missing) fun record hrecord => ?_
    refine (completeResponder_runs confirmation ⟨record, s.log⟩).mono ?_ ?_
    · rintro _ _ ⟨rootKey, hroot, haccepts, rfl, rfl⟩
      exact .accepted hrecord hroot haccepts
    · rintro _ t ⟨hself, hlog⟩
      exact .raised (by rw [hself]; exact setResponder_self hrecord) (hlog.mono fun _ => Or.inl)
  | encrypt handle plaintext =>
    refine .zoomOption (fun _ => .missing) fun session hsession => ?_
    refine (SessionState.encrypt_runs plaintext ⟨session, s.log⟩).bind' ?_ ?_
    · rintro packet _ ⟨data, call, ciphertext, rfl, hsends, hresult, hpacket, rfl⟩
      exact .pure (.sent hsession hsends hresult hpacket)
    · rintro exc t ⟨hself, hlog | ⟨data, call, rfl, hsends, hresult, hlog⟩⟩
      · rw [hself, setSession_self hsession]
        exact .raised rfl (hlog.mono fun _ => Or.inl)
      · rw [hself, setSession_self hsession, hlog]
        exact .unsealed hsession hsends hresult
  | decrypt handle blob =>
    refine .zoomOption (fun _ => .missing) fun session hsession => ?_
    refine (SessionState.decrypt_runs blob ⟨session, s.log⟩).bind' ?_ ?_
    · rintro data _ ⟨n, call, hopens, hresult, rfl⟩
      exact .pure (.opened hsession hopens hresult)
    · rintro exc t ⟨hself, hlog⟩
      rw [hself, setSession_self hsession]
      exact .raised rfl (hlog.mono fun _ => Or.inl)

theorem step_does (s : Frame System Call) (e : Event) :
    Does s e (step s e).1 (step s e).2 := by
  have h := perform_does s e
  unfold Runs at h
  unfold step
  rcases hrun : (perform e).run s with ⟨exc | answer, t⟩
  · rw [hrun] at h
    exact h
  · rw [hrun] at h
    exact h

end System

end CypherSyntax
