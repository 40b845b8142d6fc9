import CypherSyntax.Channel

/-!
# Delivery

A packet that was sent is opened, whatever else was given to `decrypt` before, unless it was opened
already or has left the window.

Results:
* `Channel.deliver`: one packet.
* `Channel.deliver_all`: a batch, in any order.
* `Channel.reached_delivers`: both, after any run; and a call that raises changes nothing.
-/

namespace CypherSyntax

open Python Json

/-! ## Windows -/

/-- The history determines the window. -/
theorem Refines.unique {window window' : ReplayWindow} {accepted : Finset Int}
    (h : Refines window accepted) (h' : Refines window' accepted)
    (hsize : window.windowSize = window'.windowSize) : window = window' := by
  have hhighest := h.highestSeen.trans h'.highestSeen.symm
  have hseen := h.seen
  rw [hsize, ← h'.seen] at hseen
  obtain ⟨_, _, _, _⟩ := window
  obtain ⟨_, _, _, _⟩ := window'
  simp only at hsize hhighest hseen
  subst hsize hhighest hseen
  rfl

section Packets

variable [Interpreter] [Crypto]

/-! ## Packets -/

/-- The sequence in a packet, -1 if there is none. -/
def Delivery.sequence (d : Delivery) : Int :=
  match MessageEnvelope.fromBytes d.packet with
  | .ok ⟨_, _, _, _, .int n, _⟩ => n
  | _ => -1

namespace Channel

variable {sessions : Side → SessionState} {s t : Frame Channel Call} {side : Side}

theorem SentAs.fromBytes {session : SessionState} {n : Int} {log : List Call} {d : Delivery}
    {call : AeadCall} (h : SentAs session n log d call) : ∃ ciphertext,
      Crypto.encrypt call.aead call.key call.nonce call.data call.associatedData =
        .ok ciphertext ∧
      MessageEnvelope.fromBytes d.packet = .ok ((session.sendMetadata n).envelope ciphertext) := by
  obtain ⟨ciphertext, packet, -, hseal, hbytes, hpacket⟩ := h.packet
  exact ⟨ciphertext, hseal, hpacket ▸ fromBytes_of_toBytes hbytes⟩

/-- The n-th packet has sequence n. -/
theorem Invariant.sequence (hinv : Invariant sessions s) {n : Nat} {d : Delivery}
    (hd : (s.self side).sent[n]? = some d) : d.sequence = n := by
  obtain ⟨call, hsent⟩ := hinv.sent side n d hd
  obtain ⟨ciphertext, -, hfrom⟩ := hsent.fromBytes
  unfold Delivery.sequence
  rw [hfrom]
  rfl

/-! ## One packet -/

/-- The call that opens a packet that was sent. -/
theorem SentAs.opens (hopen : OpensSealed) {session peer : SessionState} {n : Int}
    {log : List Call} {d : Delivery} {call : AeadCall} (h : SentAs session n log d call)
    (hmirrors : session.Mirrors peer) {accepted : Finset Int}
    (hrefines : Refines peer.replayWindow accepted) (hfresh : n ∉ accepted)
    (hwindow : peer.replayWindow.highestSeen - peer.replayWindow.windowSize < n) :
    ∃ opening : AeadCall, peer.Opens d.packet n opening ∧ opening.result = some call.data := by
  obtain ⟨ciphertext, hseal, hfrom⟩ := h.fromBytes
  have hmessage := h.message
  refine hmessage.opens hopen hmirrors hseal hfrom ?_
  rw [hrefines.check, accepts_eq_some, ← hrefines.highestSeen]
  exact ⟨rfl, hmessage.bounds.1, hmessage.bounds.2, hfresh, hwindow⟩

/-- **A packet that was sent and is fresh is opened.** -/
theorem deliver (hpaired : Paired sessions) (hopen : OpensSealed) (hinv : Invariant sessions s)
    {d : Delivery} (hd : d ∈ (s.self side.other).sent) {accepted : Finset Int}
    (hrefines : Refines (s.self side).session.replayWindow accepted)
    (hfresh : d.sequence ∉ accepted)
    (hwindow : (s.self side).session.replayWindow.highestSeen -
      (s.self side).session.replayWindow.windowSize < d.sequence) :
    ∃ t, step s (.decrypt side d.packet) = (.ok d.plaintext, t) ∧
      t.self = Function.update s.self side ⟨(s.self side).session.accept d.sequence,
        (s.self side).sent, (s.self side).opened ++ [d]⟩ := by
  obtain ⟨n, hn⟩ := List.mem_iff_getElem?.mp hd
  rw [hinv.sequence hn] at hfresh hwindow ⊢
  obtain ⟨call, hsent⟩ := hinv.sent _ n d hn
  have hmirrors : (sessions side.other).Mirrors (s.self side).session :=
    SessionState.Continues.mirrors (.refl _) (hinv.continues side) (hpaired.mirrors_other side)
  obtain ⟨opening, hopens, hresult⟩ := hsent.opens hopen hmirrors hrefines hfresh hwindow
  have hrun := SessionState.decrypt_returns (s := ⟨(s.self side).session, s.log⟩) hopens hresult
  have hplaintext := hsent.plaintext
  obtain ⟨plaintext, packet⟩ := d
  obtain rfl : plaintext = _ := hplaintext
  have hstep : step s (.decrypt side packet) = (.ok (.bytes call.data),
      ⟨Function.update s.self side ⟨(s.self side).session.accept n, (s.self side).sent,
        (s.self side).opened ++ [⟨.bytes call.data, packet⟩]⟩,
        s.log ++ (s.self side).session.receiveCalls n opening⟩) := by
    unfold step perform
    simp only [Method.run_zoom, Endpoint.decrypt_run, hrun]
  exact ⟨_, hstep, rfl⟩

/-! ## A batch -/

/-- What the other end sent, with sequences that the window has not passed and will not pass before
the batch ends. -/
structure Fresh (s : Frame Channel Call) (side : Side) (accepted : Finset Int)
    (batch : List Delivery) : Prop where
  sent : ∀ d ∈ batch, d ∈ (s.self side.other).sent
  nodup : batch.Nodup
  fresh : ∀ d ∈ batch, d.sequence ∉ accepted
  window : ∀ d ∈ batch, (s.self side).session.replayWindow.highestSeen -
    (s.self side).session.replayWindow.windowSize < d.sequence
  span : ∀ d ∈ batch, ∀ d' ∈ batch,
    d'.sequence - d.sequence < (s.self side).session.replayWindow.windowSize

/-- Packets with one sequence are one packet. -/
theorem Invariant.sequence_inj (hinv : Invariant sessions s) {d d' : Delivery}
    (hd : d ∈ (s.self side).sent) (hd' : d' ∈ (s.self side).sent)
    (h : d.sequence = d'.sequence) : d = d' := by
  obtain ⟨n, hn⟩ := List.mem_iff_getElem?.mp hd
  obtain ⟨n', hn'⟩ := List.mem_iff_getElem?.mp hd'
  rw [hinv.sequence hn, hinv.sequence hn', Nat.cast_inj] at h
  subst h
  exact Option.some.inj (hn.symm.trans hn')

/-- **A batch is opened in any order**, and its order does not show in the window. -/
theorem deliver_all (hpaired : Paired sessions) (hopen : OpensSealed) (batch : List Delivery)
    {s : Frame Channel Call} (hinv : Invariant sessions s) {accepted : Finset Int}
    (hrefines : Refines (s.self side).session.replayWindow accepted)
    (hbatch : Fresh s side accepted batch) :
    (Machine.run step s (batch.map fun d => .decrypt side d.packet)).1 =
      batch.map (fun d => .ok d.plaintext) ∧
    ∃ window : ReplayWindow,
      ((Machine.run step s (batch.map fun d => .decrypt side d.packet)).2.self side).session =
        { (s.self side).session with replayWindow := window } ∧
      window.windowSize = (s.self side).session.replayWindow.windowSize ∧
      Refines window (accepted ∪ (batch.map Delivery.sequence).toFinset) := by
  induction batch generalizing s accepted with
  | nil => exact ⟨rfl, (s.self side).session.replayWindow, rfl, rfl, by simpa using hrefines⟩
  | cons d batch ih =>
    obtain ⟨hsent, hnodup, hfresh, hwindow, hspan⟩ := hbatch
    rw [List.nodup_cons] at hnodup
    have hd := List.mem_cons_self (a := d) (l := batch)
    have hmem := fun d' (h : d' ∈ batch) => List.mem_cons_of_mem d h
    obtain ⟨t, hstep, ht⟩ := deliver hpaired hopen hinv (hsent d hd) hrefines (hfresh d hd)
      (hwindow d hd)
    have hinv' : Invariant sessions t := by
      have hdoes := step_does s (.decrypt side d.packet)
      rw [hstep] at hdoes
      exact hdoes.invariant hpaired hinv
    have hside : t.self side = ⟨(s.self side).session.accept d.sequence, (s.self side).sent,
        (s.self side).opened ++ [d]⟩ := by rw [ht, Function.update_self]
    have hother : t.self side.other = s.self side.other := by
      rw [ht, Function.update_of_ne side.other_ne]
    have hbatch' : Fresh t side (insert d.sequence accepted) batch := by
      refine ⟨fun d' h => ?_, hnodup.2, fun d' h => ?_, fun d' h => ?_, fun d' h d'' h' => ?_⟩
      · rw [hother]
        exact hsent d' (hmem d' h)
      · rw [Finset.mem_insert, not_or]
        refine ⟨fun heq => hnodup.1 ?_, hfresh d' (hmem d' h)⟩
        exact hinv.sequence_inj (hsent d' (hmem d' h)) (hsent d hd) heq ▸ h
      · have hfloor := hwindow d' (hmem d' h)
        have hnear := hspan d' (hmem d' h) d hd
        rw [hside]
        show ((s.self side).session.replayWindow.recordUnlocked d.sequence).highestSeen -
          (s.self side).session.replayWindow.windowSize < d'.sequence
        rw [ReplayWindow.recordUnlocked_highestSeen]
        rcases max_choice d.sequence (s.self side).session.replayWindow.highestSeen with h | h <;>
          omega
      · rw [hside]
        exact hspan d' (hmem d' h) d'' (hmem d'' h')
    have hrefines' : Refines (t.self side).session.replayWindow (insert d.sequence accepted) := by
      rw [hside]
      exact hrefines.record d.sequence
    obtain ⟨hout, window, hsession, hsize, hend⟩ := ih hinv' hrefines' hbatch'
    rw [List.map_cons, Machine.run_cons, hstep]
    refine ⟨congrArg (_ :: ·) hout, window, ?_, ?_, ?_⟩
    · rw [hsession, hside]
      rfl
    · rw [hsize, hside]
      rfl
    · rw [List.map_cons, List.toFinset_cons, Finset.union_insert, ← Finset.insert_union]
      exact hend

/-! ## After any run -/

/-- What was not opened has a sequence that was not accepted. -/
theorem sequence_fresh (hpaired : Paired sessions) (hinv : Invariant sessions s)
    (hauthentic : Authentic s.log) (hfree : HkdfCollisionFree s.log) {ns : List Int}
    (hopened : List.Forall₂ (OpenedAs (sessions side.other) s.log) ns (s.self side).opened)
    {d : Delivery} (hd : d ∈ (s.self side.other).sent) (hnew : d ∉ (s.self side).opened) :
    d.sequence ∉ ns := by
  intro hn
  obtain ⟨d', hd', h⟩ := exists_of_forall₂ hopened hn
  obtain ⟨hpos, hget⟩ := h.sent hpaired hinv hauthentic hfree
  have heq : d' = d := by
    refine hinv.sequence_inj (List.mem_of_getElem? hget) hd ?_
    rw [hinv.sequence hget]
    omega
  exact hnew (heq ▸ hd')

/-- A call that raises on bytes that arrive changes nothing. -/
theorem decrypt_rejected (s : Frame Channel Call) (side : Side) (blob : Value) (e : PyError)
    (h : (step s (.decrypt side blob)).1 = .error e) :
    (step s (.decrypt side blob)).2.self = s.self := by
  have hdoes := step_does s (.decrypt side blob)
  rw [h] at hdoes
  generalize (step s (.decrypt side blob)).2 = t at hdoes ⊢
  cases hdoes with
  | rejected hself => exact hself

/-- **A packet is opened, whatever was given to `decrypt` before**, unless it was opened already or
has left the window; a call that raises changes nothing; and a batch that spans less than the window
is opened in any order, with the same session after it. -/
theorem reached_delivers (hpaired : Paired sessions) (hopen : OpensSealed) (uses : List Use)
    (hauthentic : Authentic (reached sessions uses).log)
    (hfree : HkdfCollisionFree (reached sessions uses).log) (side : Side) :
    let s := reached sessions uses
    let window := (s.self side).session.replayWindow
    let deliverAll (batch : List Delivery) :=
      Machine.run step s (batch.map fun d => .decrypt side d.packet)
    (∀ d ∈ (s.self side.other).sent, d ∉ (s.self side).opened →
      window.highestSeen - window.windowSize < d.sequence →
      (step s (.decrypt side d.packet)).1 = .ok d.plaintext) ∧
    (∀ blob e, (step s (.decrypt side blob)).1 = .error e →
      (step s (.decrypt side blob)).2.self = s.self) ∧
    ∀ batch batch' : List Delivery, batch.Nodup → batch.Perm batch' →
      (∀ d ∈ batch, d ∈ (s.self side.other).sent ∧ d ∉ (s.self side).opened ∧
        window.highestSeen - window.windowSize < d.sequence) →
      (∀ d ∈ batch, ∀ d' ∈ batch, d'.sequence - d.sequence < window.windowSize) →
      (deliverAll batch).1 = batch.map (fun d => .ok d.plaintext) ∧
      (deliverAll batch').1 = batch'.map (fun d => .ok d.plaintext) ∧
      ((deliverAll batch').2.self side).session = ((deliverAll batch).2.self side).session := by
  intro s window deliverAll
  have hinv := invariant_reached hpaired uses
  obtain ⟨ns, -, hopened, hrefines⟩ := hinv.opened side
  have hfresh : ∀ d ∈ (s.self side.other).sent, d ∉ (s.self side).opened →
      d.sequence ∉ ns.toFinset := fun d hd hnew hn =>
    sequence_fresh hpaired hinv hauthentic hfree hopened hd hnew (List.mem_toFinset.mp hn)
  refine ⟨fun d hd hnew hwindow => ?_, decrypt_rejected s side,
    fun batch batch' hnodup hperm hnew hspan => ?_⟩
  · obtain ⟨t, hstep, -⟩ := deliver hpaired hopen hinv hd hrefines (hfresh d hd hnew) hwindow
    rw [hstep]
  · have hbatch : Fresh s side ns.toFinset batch :=
      ⟨fun d hd => (hnew d hd).1, hnodup, fun d hd => hfresh d (hnew d hd).1 (hnew d hd).2.1,
        fun d hd => (hnew d hd).2.2, hspan⟩
    have hbatch' : Fresh s side ns.toFinset batch' := by
      obtain ⟨hsent, hnodup, hfresh, hwindow, hspan⟩ := hbatch
      refine ⟨fun d hd => hsent d (hperm.mem_iff.mpr hd), hperm.nodup_iff.mp hnodup,
        fun d hd => hfresh d (hperm.mem_iff.mpr hd), fun d hd => hwindow d (hperm.mem_iff.mpr hd),
        fun d hd d' hd' => hspan d (hperm.mem_iff.mpr hd) d' (hperm.mem_iff.mpr hd')⟩
    obtain ⟨hout, w, hsession, hsize, hw⟩ := deliver_all hpaired hopen batch hinv hrefines hbatch
    obtain ⟨hout', w', hsession', hsize', hw'⟩ :=
      deliver_all hpaired hopen batch' hinv hrefines hbatch'
    rw [← List.toFinset_eq_of_perm _ _ (hperm.map Delivery.sequence)] at hw'
    refine ⟨hout, hout', hsession'.trans (Eq.trans ?_ hsession.symm)⟩
    rw [hw'.unique hw (hsize'.trans hsize.symm)]

end Channel

end Packets

section Samples

open scoped Samples

/-- Alice sends two packets, and Bob gets a byte string that is none. -/
def forging : List Use := twoSent ++ [.decrypt .right (.bytes [0])]

/-- After the forgery, Bob opens both packets in either order, and is then in one state. -/
theorem reached_delivers_forging : ∃ s, s = Channel.reached sampleSessions forging ∧
    (s.self .left).sent.length = 2 ∧
    let deliverAll (batch : List Delivery) :=
      Machine.run Channel.step s (batch.map fun d => .decrypt .right d.packet)
    (deliverAll (s.self .left).sent).1 = (s.self .left).sent.map (fun d => .ok d.plaintext) ∧
      (deliverAll (s.self .left).sent.reverse).1 =
        (s.self .left).sent.reverse.map (fun d => .ok d.plaintext) ∧
      ((deliverAll (s.self .left).sent.reverse).2.self .right).session =
        ((deliverAll (s.self .left).sent).2.self .right).session := by
  have hrun : (fun s : Frame Channel Call => Authentic s.log ∧ HkdfCollisionFree s.log ∧
      (s.self .left).sent.map Delivery.sequence = [0, 1] ∧
      (s.self .right).opened.map Delivery.sequence = [] ∧
      (s.self .right).session.replayWindow = ReplayWindow.default)
      (Channel.reached sampleSessions forging) := by
    decide +kernel
  obtain ⟨hauthentic, hfree, hsequences, hopened, hwindow⟩ := hrun
  obtain ⟨-, -, hbatch⟩ := Channel.reached_delivers paired_sampleSessions
    (fun _ _ _ _ _ _ h => opened_sealed h) forging hauthentic hfree .right
  rw [show Side.right.other = .left from rfl] at hbatch
  generalize Channel.reached sampleSessions forging = s at *
  have hnodup : (s.self .left).sent.Nodup := List.Nodup.of_map _ (by rw [hsequences]; decide)
  have hbounds : ∀ d ∈ (s.self .left).sent, 0 ≤ d.sequence ∧ d.sequence ≤ 1 := by
    intro d hd
    have hmem : d.sequence ∈ [0, 1] := hsequences ▸ List.mem_map_of_mem hd
    simp only [List.mem_cons, List.not_mem_nil, or_false] at hmem
    omega
  have hlength : (s.self .left).sent.length = 2 := by
    rw [← List.length_map (f := Delivery.sequence), hsequences]
    rfl
  refine ⟨s, rfl, hlength, hbatch _ _ hnodup (List.reverse_perm _).symm ?_ ?_⟩
  · intro d hd
    obtain ⟨hlo, -⟩ := hbounds d hd
    refine ⟨hd, ?_, ?_⟩
    · rw [List.map_eq_nil_iff.mp hopened]
      exact List.not_mem_nil
    · rw [hwindow]
      show (-1 : Int) - 1024 < _
      omega
  · intro d hd d' hd'
    obtain ⟨hlo, -⟩ := hbounds d hd
    obtain ⟨-, hhi⟩ := hbounds d' hd'
    rw [hwindow]
    show _ < (1024 : Int)
    omega

end Samples

end CypherSyntax
