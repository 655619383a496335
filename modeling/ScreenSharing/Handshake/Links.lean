import ScreenSharing.Handshake.Secrets

/-!
# An upgraded side

What a side does once its connection is upgraded: it sends the next frame, or throws and sends
nothing; it takes the next frame of the other side, and hands it to its listener or to the inbox; and
a flush keeps the order of the inbox.
-/

namespace ScreenSharing.Handshake

open Lib Crypto Net

variable {P J : Type*} [AddCommGroup P] {L : Setup P J} {Pc : Type*}

def other : ConnectionRole → ConnectionRole
  | .host => .peer
  | .peer => .host

theorem receives_eq (role : ConnectionRole) (keys : TransportKeys) :
    Connection.receives role keys = Connection.sends (other role) keys := by
  cases role <;> rfl

/-- A side that is upgraded, and has decoded `n` frames. -/
structure Linked (hC : L.Correct) (role : ConnectionRole) (p : Process Pc) (n : ℕ) : Prop where
  encoder : p.conn.encoder = some (Setup.encoder hC role p.said.length)
  decoder : p.conn.decoder = some (Setup.decoder hC (other role) n)
  faultless : p.faults = []
  sendable : ∀ env ∈ p.said, L.Sendable env
  bound : p.said.length ≤ maxU64 + 1

/-- What `Linked` says depends only on these parts of a side. -/
theorem Linked.congr {hC : L.Correct} {role : ConnectionRole} {p p' : Process Pc} {n : ℕ}
    (h : Linked hC role p n) (hencoder : p'.conn.encoder = p.conn.encoder)
    (hdecoder : p'.conn.decoder = p.conn.decoder) (hfaults : p'.faults = p.faults)
    (hsaid : p'.said = p.said) : Linked hC role p' n where
  encoder := by rw [hencoder, hsaid, h.encoder]
  decoder := by rw [hdecoder, h.decoder]
  faultless := hfaults.trans h.faultless
  sendable := by rw [hsaid]; exact h.sendable
  bound := by rw [hsaid]; exact h.bound

/-! ### Sending -/

/-- **A side sends** the next frame, or throws and only counts the envelope. -/
theorem send_linked {hC : L.Correct} {role : ConnectionRole} {p : Process Pc} {n : ℕ}
    (h : Linked hC role p n) {body : Body} (hfits : L.Fits (p.conn.envelope body)) :
    (∃ e, p.send L.gcm L.wire body =
        ({ p with conn := { p.conn with seq := p.conn.seq + 1 } }, .error e)) ∨
      L.Sendable (p.conn.envelope body) ∧ p.said.length ≤ maxU64 ∧
        p.send L.gcm L.wire body = ({ p with
          conn := { p.conn with
            encoder := some (Setup.encoder hC role (p.said.length + 1))
            seq := p.conn.seq + 1 }
          said := p.said ++ [p.conn.envelope body] },
          .ok (Setup.frame hC role p.said.length (p.conn.envelope body))) := by
  unfold Process.send Connection.send
  rw [h.encoder]
  dsimp only
  rcases encode_cases L.gcm (L.wire.ofEnvelope (p.conn.envelope body))
      (Setup.encoder hC role p.said.length) with ⟨e, herr, hsame⟩ | ⟨hlen, hcount, -, hok⟩
  · left
    have hencoder : ((Setup.encoder hC role p.said.length).encode L.gcm
        (L.wire.ofEnvelope (p.conn.envelope body))).1 = Setup.encoder hC role p.said.length := by
      rcases hsame with hsame | ⟨hkey, -, -⟩
      · exact hsame
      · exact absurd (Setup.key_length hC role) hkey
    have hpair : (Setup.encoder hC role p.said.length).encode L.gcm
        (L.wire.ofEnvelope (p.conn.envelope body)) =
          (Setup.encoder hC role p.said.length, .error e) := Prod.ext hencoder herr
    rw [hpair]
    dsimp only
    rw [← h.encoder]
    exact ⟨_, rfl⟩
  · right
    rw [hok]
    exact ⟨⟨rfl, hfits, hlen⟩, hcount, rfl⟩

/-- A side sends an envelope within the limits. -/
theorem send_linked_ok {hC : L.Correct} {role : ConnectionRole} {p : Process Pc} {n : ℕ}
    (h : Linked hC role p n) (body : Body)
    (hlen : (L.wire.ofEnvelope (p.conn.envelope body)).length ≤ maxPlaintextBytes)
    (hcount : p.said.length ≤ maxU64) :
    p.send L.gcm L.wire body = ({ p with
      conn := { p.conn with
        encoder := some (Setup.encoder hC role (p.said.length + 1))
        seq := p.conn.seq + 1 }
      said := p.said ++ [p.conn.envelope body] },
      .ok (Setup.frame hC role p.said.length (p.conn.envelope body))) := by
  have hok := encode_eq_ok L.gcm (E := Setup.encoder hC role p.said.length) hlen hcount
    (Setup.key_length hC role)
  unfold Process.send Connection.send
  rw [h.encoder]
  dsimp only
  rw [hok]
  rfl

theorem Linked.sent {hC : L.Correct} {role : ConnectionRole} {p : Process Pc} {n : ℕ}
    (h : Linked hC role p n) {env : Envelope} (henv : L.Sendable env)
    (hbound : p.said.length ≤ maxU64) (conn : Connection)
    (hencoder : conn.encoder = some (Setup.encoder hC role (p.said.length + 1)))
    (hdecoder : conn.decoder = p.conn.decoder) :
    Linked hC role { p with conn := conn, said := p.said ++ [env] } n where
  encoder := by
    show conn.encoder = some (Setup.encoder hC role (p.said ++ [env]).length)
    rw [hencoder, List.length_append, List.length_singleton]
  decoder := hdecoder.trans h.decoder
  faultless := h.faultless
  sendable := by
    intro env' hmem
    rcases List.mem_append.mp hmem with hold | hnew
    · exact h.sendable env' hold
    · rw [List.mem_singleton.mp hnew]
      exact henv
  bound := by
    show (p.said ++ [env]).length ≤ maxU64 + 1
    rw [List.length_append, List.length_singleton]
    omega

/-! ### Receiving -/

/-- **A side takes** the next frame, and delivers its envelope. -/
theorem onMessage_linked {hC : L.Correct} {role : ConnectionRole} {p : Process Pc} {n : ℕ}
    (h : Linked hC role p n) (prog : Program Pc) (hn : n ≤ maxU64) {env : Envelope}
    (henv : L.Sendable env) :
    p.onMessage L.decipher L.wire prog (Setup.frame hC (other role) n env, true) =
      (({ p with conn := { p.conn with
          decoder := some (Setup.decoder hC (other role) (n + 1)) } } : Process Pc).deliver prog
            (.message env), none) := by
  have hreceive : p.conn.receive L.decipher L.wire (Setup.frame hC (other role) n env) true =
      ({ p.conn with decoder := some (Setup.decoder hC (other role) (n + 1)) },
        .ok (some (.message env))) := by
    unfold Connection.receive Connection.encrypted
    rw [h.encoder, Option.isSome_some, if_pos rfl, if_neg (by decide), h.decoder]
    dsimp only
    rw [Setup.decode_frame hC (other role) hn henv]
    dsimp only
    rw [henv.fits]
    dsimp only
    rw [if_neg (not_not.mpr henv.version), ← h.encoder]
  unfold Process.onMessage
  rw [hreceive]

theorem Linked.took {hC : L.Correct} {role : ConnectionRole} {p : Process Pc} {n : ℕ}
    (h : Linked hC role p n) : Linked hC role { p with conn := { p.conn with
      decoder := some (Setup.decoder hC (other role) (n + 1)) } } (n + 1) where
  encoder := h.encoder
  decoder := rfl
  faultless := h.faultless
  sendable := h.sendable
  bound := h.bound

/-! ### The inbox -/

theorem deliver_hold {prog : Program Pc} {p : Process Pc} {item : InboxItem}
    (h : prog.listens p.pc item.ev = false) :
    p.deliver prog item = { p with conn := p.conn.hold item } := by
  unfold Process.deliver
  rw [h]
  rfl

theorem deliver_emit {prog : Program Pc} {p : Process Pc} {item : InboxItem}
    (h : prog.listens p.pc item.ev = true) : p.deliver prog item = p.emit prog item := by
  unfold Process.deliver
  rw [if_pos h]

/-- Without a listener, a flush puts the items back. -/
theorem flushItems_hold {prog : Program Pc} (items : List InboxItem) (p : Process Pc)
    (h : ∀ item ∈ items, prog.listens p.pc item.ev = false) :
    Process.flushItems prog items p =
      { p with conn := { p.conn with inbox := p.conn.inbox ++ items } } := by
  induction items generalizing p with
  | nil =>
    rw [List.append_nil]
    rfl
  | cons item items ih =>
    have hrest : ∀ i ∈ items, prog.listens p.pc i.ev = false := fun i hi =>
      h i (List.mem_cons_of_mem _ hi)
    show Process.flushItems prog items (p.deliver prog item) = _
    rw [deliver_hold (h item List.mem_cons_self)]
    refine (ih { p with conn := p.conn.hold item } hrest).trans ?_
    show ({ p with conn := { p.conn with
      inbox := (p.conn.inbox ++ [item]) ++ items } } : Process Pc) = _
    rw [List.append_assoc]
    rfl

theorem flush_hold {prog : Program Pc} {p : Process Pc}
    (h : ∀ item ∈ p.conn.inbox, prog.listens p.pc item.ev = false) : p.flush prog = p :=
  flushItems_hold p.conn.inbox { p with conn := { p.conn with inbox := [] } } h

/-! ### Upgrading -/

theorem upgrade_conn (hC : L.Correct) {conn : Connection} {role : ConnectionRole}
    (hrole : conn.role = role) (h : conn.encoder = none) :
    conn.upgrade L.keys = ({ conn with
      encoder := some (Setup.encoder hC role 0)
      decoder := some (Setup.decoder hC (other role) 0)
      pendingBinary := [] }, .ok conn.pendingBinary) := by
  subst hrole
  unfold Connection.upgrade Connection.encrypted
  rw [h, Option.isSome_none, if_neg Bool.false_ne_true, receives_eq]
  unfold FrameEncoder.new FrameDecoder.new
  dsimp only
  rw [dif_pos (Setup.salt_length hC conn.role), dif_pos (Setup.salt_length hC (other conn.role))]
  rfl

/-- **The early frames** of the other side go to the inbox, in their order. -/
theorem drain_linked {hC : L.Correct} {role : ConnectionRole} (prog : Program Pc)
    (envs : List Envelope) (p : Process Pc) {n : ℕ} (h : Linked hC role p n)
    (hlisten : prog.listens p.pc .message = false) (hsend : ∀ env ∈ envs, L.Sendable env)
    (hbound : n + envs.length ≤ maxU64 + 1) :
    Process.drain L.decipher L.wire prog (Setup.frames hC (other role) n envs) p =
      ({ p with conn := { p.conn with
          decoder := some (Setup.decoder hC (other role) (n + envs.length))
          inbox := p.conn.inbox ++ envs.map .message } }, none) := by
  induction envs generalizing p n with
  | nil =>
    show (p, none) = ({ p with conn := { p.conn with
      decoder := some (Setup.decoder hC (other role) n), inbox := p.conn.inbox ++ [] } }, none)
    rw [← h.decoder, List.append_nil]
  | cons env envs ih =>
    rw [List.length_cons] at hbound
    show Process.drain L.decipher L.wire prog (Setup.frame hC (other role) n env ::
      Setup.frames hC (other role) (n + 1) envs) p = _
    unfold Process.drain
    rw [onMessage_linked h prog (by omega) (hsend env List.mem_cons_self)]
    dsimp only
    rw [deliver_hold hlisten]
    have hlinked : Linked hC role ({ p with conn := Connection.hold { p.conn with
        decoder := some (Setup.decoder hC (other role) (n + 1)) } (.message env) } : Process Pc)
        (n + 1) := ⟨h.encoder, rfl, h.faultless, h.sendable, h.bound⟩
    refine (ih _ hlinked hlisten (fun e he => hsend e (List.mem_cons_of_mem _ he))
      (by omega)).trans ?_
    have hcount : n + (env :: envs).length = n + 1 + envs.length := by
      rw [List.length_cons]
      omega
    have hinbox : p.conn.inbox ++ (env :: envs).map .message =
        (p.conn.inbox ++ [.message env]) ++ envs.map .message := by
      rw [List.append_assoc]
      rfl
    rw [hcount, hinbox]
    rfl

/-! ### Idle deliveries -/

/-- What is the same after a delivery that does not let the function go on. -/
structure Idle (p p' : Process Pc) : Prop where
  pc : p'.pc = p.pc
  queue : p'.queue = p.queue
  said : p'.said = p.said
  faults : p'.faults = p.faults
  encoder : p'.conn.encoder = p.conn.encoder
  decoder : p'.conn.decoder = p.conn.decoder
  seq : p'.conn.seq = p.conn.seq
  epoch : p'.conn.epoch = p.conn.epoch

theorem Idle.refl (p : Process Pc) : Idle p p := ⟨rfl, rfl, rfl, rfl, rfl, rfl, rfl, rfl⟩

theorem Idle.trans {p p' p'' : Process Pc} (h : Idle p p') (h' : Idle p' p'') : Idle p p'' where
  pc := h'.pc.trans h.pc
  queue := h'.queue.trans h.queue
  said := h'.said.trans h.said
  faults := h'.faults.trans h.faults
  encoder := h'.encoder.trans h.encoder
  decoder := h'.decoder.trans h.decoder
  seq := h'.seq.trans h.seq
  epoch := h'.epoch.trans h.epoch

theorem idle_deliver {prog : Program Pc} {p : Process Pc} {item : InboxItem}
    (h : prog.onItem p.pc item = (p.pc, false)) : Idle p (p.deliver prog item) := by
  unfold Process.deliver
  split
  · unfold Process.emit
    rw [h]
    exact ⟨rfl, rfl, rfl, rfl, rfl, rfl, rfl, rfl⟩
  · exact ⟨rfl, rfl, rfl, rfl, rfl, rfl, rfl, rfl⟩

theorem idle_flushItems {prog : Program Pc} (items : List InboxItem) : ∀ {p : Process Pc},
    (∀ item, prog.onItem p.pc item = (p.pc, false)) →
      Idle p (Process.flushItems prog items p) := by
  induction items with
  | nil => exact fun _ => Idle.refl _
  | cons item items ih =>
    intro p h
    have hone := idle_deliver (h item)
    refine hone.trans (ih fun item' => ?_)
    rw [hone.pc]
    exact h item'

theorem idle_flush {prog : Program Pc} {p : Process Pc}
    (h : ∀ item, prog.onItem p.pc item = (p.pc, false)) : Idle p (p.flush prog) := by
  have hemptied : Idle p { p with conn := { p.conn with inbox := [] } } :=
    ⟨rfl, rfl, rfl, rfl, rfl, rfl, rfl, rfl⟩
  exact hemptied.trans (idle_flushItems _ h)

theorem Linked.idle {hC : L.Correct} {role : ConnectionRole} {p p' : Process Pc} {n : ℕ}
    (h : Linked hC role p n) (hidle : Idle p p') : Linked hC role p' n :=
  h.congr hidle.encoder hidle.decoder hidle.faults hidle.said

end ScreenSharing.Handshake
