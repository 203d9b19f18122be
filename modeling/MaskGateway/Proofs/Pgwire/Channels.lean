import MaskGateway.Pgwire.Channels

/-!
# `MaskGateway.Proofs.Pgwire.Channels`: the channels move bytes exactly

What a call has done so far is a function of where it is in its loops. `SendCall`, `RecvCall`,
`TlsSendCall` and `TlsRecvCall` say this for the four calls, against the state in which the call
began; every event inside the call keeps them (`SendCall.step` and its siblings), so they hold in
every state that any sequence of answers leads to.

`checked_before` is about all calls at once: an operation of the socket or the TLS object comes right
after a check that passed. `transport_exact` is the whole.
-/

set_option autoImplicit false

namespace MaskGateway.Proofs.Channels

open MaskGateway.Lib
open MaskGateway.Pgwire.Channels
open MaskGateway.Pgwire.Session (TransportFailure)

section

variable {limits : Limits} {s₀ s s' : State} {e : Event} {events : List Event}

/-- Events inside one call. -/
def NoCall (events : List Event) : Prop := ∀ e ∈ events, e.isCall = false

/-- Between calls nothing happens but a call. -/
theorem no_step_idle (hpc : s.pc = .idle) (he : e.isCall = false) : step limits s e ≠ some s' := by
  cases e with
  | call call => exact nomatch he
  | check answer => simp [step, checkStep, hpc]
  | send sent => simp [step, hpc]
  | recv arrived received => simp [step, hpc]
  | write produced written => simp [step, hpc]
  | read arrived produced read => simp [step, hpc]

/-- What is kept inside a call holds to its end. -/
theorem run_call {P : State → Prop} {call : Call}
    (hstep : ∀ {s s' : State} {e : Event}, P s → e.isCall = false → step limits s e = some s' → P s')
    (hbegin : P (s.begin limits call)) (hcalls : NoCall events)
    (hrun : run (step limits) s (.call call :: events) = some s') : P s' := by
  obtain ⟨s₁, h₁, hrest⟩ := run_cons_eq_some.mp hrun
  have hstart : P s₁ := by
    rw [step] at h₁
    split at h₁
    · rw [← Option.some_inj.mp h₁]
      exact hbegin
    · exact nomatch h₁
  clear hrun h₁ hbegin
  induction events generalizing s₁ with
  | nil => exact Option.some_inj.mp hrest ▸ hstart
  | cons e events ih =>
    obtain ⟨s₂, h₂, hrest⟩ := run_cons_eq_some.mp hrest
    exact ih (fun e he => hcalls e (List.mem_cons_of_mem _ he)) s₂ hrest
      (hstep hstart (hcalls e List.mem_cons_self) h₂)

/-! ### What one event does -/

/-- One event in `RawChannel.send_all`. A timeout is a round in which no byte was accepted. -/
inductive SendMove (limits : Limits) (view : List UInt8) (offset : Nat) (sender : Sender)
    (s : State) : Event → State → Prop
  | passed :
      SendMove limits view offset sender s (.check .passed)
        { s with pc := .sending true view offset sender }
  | raised {e : Event} (kind : TransportFailure) (uncertain : Bool) :
      SendMove limits view offset sender s e (s.fail kind uncertain)
  | moved {e : Event} (n : Nat) (hn : n ≤ view.length - offset) :
      SendMove limits view offset sender s e
        ({ s with accepted := s.accepted ++ (view.drop offset).take n }.sendLoop limits view
          (offset + n) sender)

/-- One event in `recv_some`. -/
inductive RecvMove (limits : Limits) (maximum : Nat) (receiver : Receiver) (s : State) :
    Event → State → Prop
  | passed :
      RecvMove limits maximum receiver s (.check .passed)
        { s with pc := .receiving true maximum receiver }
  | raised {e : Event} (arrived : List UInt8) (kind : TransportFailure) (uncertain : Bool) :
      RecvMove limits maximum receiver s e
        ({ s with inbound := s.inbound.arrive arrived }.fail kind uncertain)
  | waited {e : Event} (arrived : List UInt8) :
      RecvMove limits maximum receiver s e
        { s with inbound := s.inbound.arrive arrived, pc := .receiving false maximum receiver }
  | took {e : Event} (arrived : List UInt8) (n : Nat) (hn : n ≤ maximum)
      (hleft : n ≤ (s.inbound.arrive arrived).left.length) :
      RecvMove limits maximum receiver s e
        (let data := (s.inbound.arrive arrived).left.take n
        let s := { s with inbound := (s.inbound.arrive arrived).take n }
        match receiver with
        | .recvExact size buffer => s.recvLoop size (buffer ++ data)
        | .feed size buffer => { s with fed := s.fed ++ data }.readLoop size buffer)

/-- One event in `TlsChannel.send_all`, at the TLS object. -/
inductive WriteMove (limits : Limits) (view : List UInt8) (offset : Nat) (s : State) :
    Event → State → Prop
  | passed :
      WriteMove limits view offset s (.check .passed) { s with pc := .writing true view offset }
  | raised {e : Event} (produced : List UInt8) (kind : TransportFailure) (uncertain : Bool) :
      WriteMove limits view offset s e ((s.produce produced).fail kind uncertain)
  | moved {e : Event} (produced : List UInt8) (n : Nat) (hn : n ≤ view.length - offset) :
      WriteMove limits view offset s e
        ({ s.produce produced with plain := s.plain ++ (view.drop offset).take n }.flushLoop limits
          (.tlsSendAll view (offset + n)))

/-- One event in `TlsChannel.recv_exact`, at the TLS object. -/
inductive ReadMove (limits : Limits) (size : Nat) (buffer : List UInt8) (s : State) :
    Event → State → Prop
  | passed :
      ReadMove limits size buffer s (.check .passed) { s with pc := .reading true size buffer }
  | raised {e : Event} (arrived produced : List UInt8) (kind : TransportFailure) (uncertain : Bool) :
      ReadMove limits size buffer s e
        (({ s with decrypted := s.decrypted.arrive arrived }.produce produced).fail kind uncertain)
  | wanted {e : Event} (arrived produced : List UInt8) :
      ReadMove limits size buffer s e
        (({ s with decrypted := s.decrypted.arrive arrived }.produce produced).flushLoop limits
          (.tlsRecvExact size buffer))
  | took {e : Event} (arrived produced : List UInt8) (n : Nat) (hn : n ≤ size - buffer.length)
      (hleft : n ≤ (s.decrypted.arrive arrived).left.length) :
      ReadMove limits size buffer s e
        ({ s.produce produced with decrypted := (s.decrypted.arrive arrived).take n }.readLoop size
          (buffer ++ (s.decrypted.arrive arrived).left.take n))

/-- A check passes, or it raises. -/
theorem checked_cases (next : Pc) (answer : Check) :
    (answer = .passed ∧ s.checked next answer = { s with pc := next }) ∨
      ∃ kind uncertain, s.checked next answer = s.fail kind uncertain := by
  cases answer with
  | passed => exact .inl ⟨rfl, rfl⟩
  | stopped => exact .inr ⟨_, _, rfl⟩
  | expired => exact .inr ⟨_, _, rfl⟩
  | failed opaqueError => exact .inr ⟨_, _, rfl⟩

/-- What an event does in `RawChannel.send_all`. -/
theorem sendMove_of_step {checked : Bool} {view : List UInt8} {offset : Nat} {sender : Sender}
    (hpc : s.pc = .sending checked view offset sender) (he : e.isCall = false)
    (hstep : step limits s e = some s') : SendMove limits view offset sender s e s' := by
  cases e with
  | call call => exact nomatch he
  | recv arrived received => simp [step, hpc] at hstep
  | write produced written => simp [step, hpc] at hstep
  | read arrived produced read => simp [step, hpc] at hstep
  | check answer =>
    cases checked with
    | true => simp [step, checkStep, hpc] at hstep
    | false =>
      simp only [step, checkStep, hpc, Option.some_inj] at hstep
      subst hstep
      rcases @checked_cases s (.sending true view offset sender) answer with ⟨rfl, h⟩ | ⟨kind, u, h⟩
      · exact h ▸ .passed
      · exact h ▸ .raised kind u
  | send sent =>
    cases checked with
    | false => simp [step, hpc] at hstep
    | true =>
      simp only [step, hpc, Option.some_inj] at hstep
      subst hstep
      match sent with
      | .failed opaqueError => exact .raised _ _
      | .returned none => exact .raised _ _
      | .timeout opaqueError =>
        rw [State.sent]
        split
        · exact .raised _ _
        · have hmoved : SendMove limits view offset sender s (.send (.timeout opaqueError)) _ :=
             .moved 0 (Nat.zero_le _)
          simpa using hmoved
      | .returned (some value) =>
        rw [State.sent]
        split
        next hvalue => exact .moved value.toNat (by omega)
        next => exact .raised _ _

/-- What an event does in `recv_some`. -/
theorem recvMove_of_step {checked : Bool} {maximum : Nat} {receiver : Receiver}
    (hpc : s.pc = .receiving checked maximum receiver) (he : e.isCall = false)
    (hstep : step limits s e = some s') : RecvMove limits maximum receiver s e s' := by
  have hnothing : ({ s with inbound := s.inbound.arrive [] } : State) = s := by
    simp [Supply.arrive]
  cases e with
  | call call => cases he
  | send sent => simp [step, hpc] at hstep
  | write produced written => simp [step, hpc] at hstep
  | read arrived produced read => simp [step, hpc] at hstep
  | check answer =>
    cases checked with
    | true => simp [step, checkStep, hpc] at hstep
    | false =>
      simp only [step, checkStep, hpc, Option.some_inj] at hstep
      subst hstep
      rcases @checked_cases s (.receiving true maximum receiver) answer with ⟨rfl, h⟩ | ⟨kind, u, h⟩
      · exact h ▸ .passed
      · have hraised : RecvMove limits maximum receiver s (.check answer) _ := .raised [] kind u
        rw [hnothing] at hraised
        exact h ▸ hraised
  | recv arrived received =>
    cases checked with
    | false => simp [step, hpc] at hstep
    | true =>
      simp only [step, hpc] at hstep
      cases received with
      | timeout => exact Option.some_inj.mp hstep ▸ .waited arrived
      | failed => exact Option.some_inj.mp hstep ▸ .raised arrived _ _
      | data count =>
        rw [State.received] at hstep
        split at hstep
        next hcount =>
          split at hstep
          next => exact Option.some_inj.mp hstep ▸ .raised arrived _ _
          next =>
            have hleft : count ≤ (s.inbound.arrive arrived).left.length := by
              have hboth : count ≤ min (min maximum limits.chunkBytes)
                (s.inbound.arrive arrived).left.length := hcount
              omega
            have htook : RecvMove limits maximum receiver s (.recv arrived (.data count)) _ :=
              .took arrived count (by omega) hleft
            cases receiver with
            | recvExact size buffer => exact Option.some_inj.mp hstep ▸ htook
            | feed size buffer => exact Option.some_inj.mp hstep ▸ htook
        next => cases hstep

/-- What an event does in `TlsChannel.send_all`, at the TLS object. -/
theorem writeMove_of_step {checked : Bool} {view : List UInt8} {offset : Nat}
    (hpc : s.pc = .writing checked view offset) (he : e.isCall = false)
    (hstep : step limits s e = some s') : WriteMove limits view offset s e s' := by
  have hnothing : s.produce [] = s := by simp [State.produce]
  cases e with
  | call call => exact nomatch he
  | send sent => simp [step, hpc] at hstep
  | recv arrived received => simp [step, hpc] at hstep
  | read arrived produced read => simp [step, hpc] at hstep
  | check answer =>
    cases checked with
    | true => simp [step, checkStep, hpc] at hstep
    | false =>
      simp only [step, checkStep, hpc, Option.some_inj] at hstep
      subst hstep
      rcases @checked_cases s (.writing true view offset) answer with ⟨rfl, h⟩ | ⟨kind, u, h⟩
      · exact h ▸ .passed
      · have hraised : WriteMove limits view offset s (.check answer) _ := .raised [] kind u
        rw [hnothing] at hraised
        exact h ▸ hraised
  | write produced written =>
    cases checked with
    | false => simp [step, hpc] at hstep
    | true =>
      simp only [step, hpc, Option.some_inj] at hstep
      subst hstep
      match written with
      | .failed opaqueError => exact .raised produced _ _
      | .returned none => exact .raised produced _ _
      | .returned (some value) =>
        rw [State.written]
        split
        next hvalue => exact .moved produced value.toNat (by omega)
        next => exact .raised produced _ _

/-- What an event does in `TlsChannel.recv_exact`, at the TLS object. -/
theorem readMove_of_step {checked : Bool} {size : Nat} {buffer : List UInt8}
    (hpc : s.pc = .reading checked size buffer) (he : e.isCall = false)
    (hstep : step limits s e = some s') : ReadMove limits size buffer s e s' := by
  have hnothing : ({ s with decrypted := s.decrypted.arrive [] } : State).produce [] = s := by
    simp [State.produce, Supply.arrive]
  cases e with
  | call call => cases he
  | send sent => simp [step, hpc] at hstep
  | recv arrived received => simp [step, hpc] at hstep
  | write produced written => simp [step, hpc] at hstep
  | check answer =>
    cases checked with
    | true => simp [step, checkStep, hpc] at hstep
    | false =>
      simp only [step, checkStep, hpc, Option.some_inj] at hstep
      subst hstep
      rcases @checked_cases s (.reading true size buffer) answer with ⟨rfl, h⟩ | ⟨kind, u, h⟩
      · exact h ▸ .passed
      · have hraised : ReadMove limits size buffer s (.check answer) _ := .raised [] [] kind u
        rw [hnothing] at hraised
        exact h ▸ hraised
  | read arrived produced read =>
    cases checked with
    | false => simp [step, hpc] at hstep
    | true =>
      simp only [step, hpc] at hstep
      cases read with
      | wantRead => exact Option.some_inj.mp hstep ▸ .wanted arrived produced
      | zeroReturn => exact Option.some_inj.mp hstep ▸ .raised arrived produced _ _
      | failed => exact Option.some_inj.mp hstep ▸ .raised arrived produced _ _
      | data count =>
        rw [State.readDone] at hstep
        split at hstep
        next hcount =>
          split at hstep
          next => exact Option.some_inj.mp hstep ▸ .raised arrived produced _ _
          next =>
            have hleft : count ≤ (s.decrypted.arrive arrived).left.length := by
              have hboth : count ≤ min (min (size - buffer.length) limits.chunkBytes)
                (s.decrypted.arrive arrived).left.length := hcount
              omega
            exact Option.some_inj.mp hstep ▸ .took arrived produced count (by omega) hleft
        next => cases hstep

/-! ### `RawChannel.send_all` -/

/-- A call of `RawChannel.send_all` so far: the socket accepted the data up to the offset. -/
inductive SendCall (s₀ : State) (data : List UInt8) : State → Prop
  | going {s : State} {checked : Bool} {offset : Nat}
      (hpc : s.pc = .sending checked data offset .caller) (hresult : s.result = none)
      (hlt : offset < data.length)
      (haccepted : s.accepted = s₀.accepted ++ data.take offset) : SendCall s₀ data s
  | returned {s : State} (hpc : s.pc = .idle)
      (haccepted : s.accepted = s₀.accepted ++ data) : SendCall s₀ data s
  | raised {s : State} (n : Nat) (hpc : s.pc = .idle)
      (hresult : ∀ bytes, s.result ≠ some (.returned bytes))
      (haccepted : s.accepted = s₀.accepted ++ data.take n) : SendCall s₀ data s

namespace SendCall

variable {data : List UInt8}

/-- The head of the loop. -/
theorem sendLoop {offset : Nat} (hresult : s.result = none)
    (haccepted : s.accepted = s₀.accepted ++ data.take offset) :
    SendCall s₀ data (s.sendLoop limits data offset .caller) := by
  rw [State.sendLoop]
  split
  next hlt => exact .going rfl hresult hlt haccepted
  next hge =>
    refine .returned rfl ?_
    show s.accepted = s₀.accepted ++ data
    rw [haccepted, List.take_of_length_le (by omega)]

/-- One event of the call. -/
theorem step (h : SendCall s₀ data s) (he : e.isCall = false)
    (hstep : Pgwire.Channels.step limits s e = some s') : SendCall s₀ data s' := by
  cases h with
  | returned hpc => exact absurd hstep (no_step_idle hpc he)
  | raised n hpc => exact absurd hstep (no_step_idle hpc he)
  | @going _ offset hpc hresult hlt haccepted =>
    cases sendMove_of_step hpc he hstep with
    | passed => exact .going rfl hresult hlt haccepted
    | raised kind uncertain => exact .raised offset rfl (fun _ h => nomatch h) haccepted
    | moved n hn =>
      refine sendLoop hresult ?_
      -- the piece that was accepted is the one at the offset
      show s.accepted ++ (data.drop offset).take n = _
      rw [haccepted, List.append_assoc, List.take_add]

end SendCall

/-! ### `RawChannel.recv_exact` -/

/-- A call of `RawChannel.recv_exact` so far: what was taken from the stream is in the buffer. -/
inductive RecvCall (s₀ : State) (size : Nat) : State → Prop
  | going {s : State} {checked : Bool} {buffer : List UInt8}
      (hpc : s.pc = .receiving checked (size - buffer.length) (.recvExact size buffer))
      (hresult : s.result = none) (hlt : buffer.length < size)
      (htaken : s.inbound.taken = s₀.inbound.taken ++ buffer) : RecvCall s₀ size s
  | returned {s : State} {bytes : List UInt8} (hpc : s.pc = .idle)
      (hresult : s.result = some (.returned bytes)) (hsize : bytes.length = size)
      (htaken : s.inbound.taken = s₀.inbound.taken ++ bytes) : RecvCall s₀ size s
  | raised {s : State} {buffer : List UInt8} (hpc : s.pc = .idle)
      (hresult : ∀ bytes, s.result ≠ some (.returned bytes)) (hlt : buffer.length < size)
      (htaken : s.inbound.taken = s₀.inbound.taken ++ buffer) : RecvCall s₀ size s

namespace RecvCall

variable {size : Nat} {buffer : List UInt8}

/-- The head of the loop. -/
theorem recvLoop (hresult : s.result = none) (hle : buffer.length ≤ size)
    (htaken : s.inbound.taken = s₀.inbound.taken ++ buffer) :
    RecvCall s₀ size (s.recvLoop size buffer) := by
  rw [State.recvLoop]
  split
  next hlt => exact .going rfl hresult hlt htaken
  next hge => exact .returned rfl rfl (by omega) htaken

/-- One event of the call. -/
theorem step (h : RecvCall s₀ size s) (he : e.isCall = false)
    (hstep : Pgwire.Channels.step limits s e = some s') : RecvCall s₀ size s' := by
  cases h with
  | returned hpc => exact absurd hstep (no_step_idle hpc he)
  | raised hpc => exact absurd hstep (no_step_idle hpc he)
  | @going _ buffer hpc hresult hlt htaken =>
    cases recvMove_of_step hpc he hstep with
    | passed => exact .going rfl hresult hlt htaken
    | raised arrived kind uncertain => exact .raised rfl (fun _ h => nomatch h) hlt htaken
    | waited arrived => exact .going rfl hresult hlt htaken
    | took arrived n hn hleft =>
      refine recvLoop hresult ?_ ?_
      · rw [List.length_append, List.length_take]
        omega
      · show s.inbound.taken ++ (s.inbound.arrive arrived).left.take n = _
        rw [htaken, List.append_assoc]

end RecvCall

/-! ### `TlsChannel.send_all` -/

/-- What the TLS object produced since then was accepted, or is held by the loop that sends it, or
waits behind that; in this order. -/
def Ciphered (s₀ s : State) (held : List UInt8) : Prop :=
  ∃ bytes, s.produced = s₀.produced ++ bytes ∧
    s.accepted ++ held ++ s.outgoing = s₀.accepted ++ s₀.outgoing ++ bytes

namespace Ciphered

variable {held : List UInt8}

/-- It holds at the start. -/
theorem refl (s : State) : Ciphered s s [] := ⟨[], by simp, by simp⟩

/-- The TLS object produces more. -/
theorem produce (h : Ciphered s₀ s held) (bytes : List UInt8) :
    Ciphered s₀ (s.produce bytes) held := by
  obtain ⟨before, hproduced, horder⟩ := h
  refine ⟨before ++ bytes, ?_, ?_⟩
  · show s.produced ++ bytes = _
    rw [hproduced, List.append_assoc]
  · show s.accepted ++ held ++ (s.outgoing ++ bytes) = _
    rw [← List.append_assoc, horder, List.append_assoc]

/-- The socket accepts from what is held. -/
theorem accept (h : Ciphered s₀ s held) (n : Nat) :
    Ciphered s₀ { s with accepted := s.accepted ++ held.take n } (held.drop n) := by
  obtain ⟨before, hproduced, horder⟩ := h
  refine ⟨before, hproduced, ?_⟩
  show s.accepted ++ held.take n ++ held.drop n ++ s.outgoing = _
  rw [List.append_assoc s.accepted, List.take_append_drop, horder]

end Ciphered

/-- A call of `TlsChannel.send_all` so far: the TLS object accepted the data up to the offset, and
what it produced goes out in order. -/
inductive TlsSendCall (s₀ : State) (data : List UInt8) : State → Prop
  | writing {s : State} {checked : Bool} {offset : Nat} (hpc : s.pc = .writing checked data offset)
      (hresult : s.result = none) (hlt : offset < data.length) (hplain : s.plain = s₀.plain ++ data.take offset)
      (hciphered : Ciphered s₀ s []) : TlsSendCall s₀ data s
  | flushing {s : State} {checked : Bool} {block : List UInt8} {pos offset : Nat}
      (hpc : s.pc = .sending checked block pos (.flush (.tlsSendAll data offset)))
      (hresult : s.result = none) (hdata : data ≠ [])
      (hplain : s.plain = s₀.plain ++ data.take offset)
      (hciphered : Ciphered s₀ s (block.drop pos)) : TlsSendCall s₀ data s
  | returned {s : State} (hpc : s.pc = .idle) (hplain : s.plain = s₀.plain ++ data)
      (hciphered : Ciphered s₀ s []) (hempty : data ≠ [] → s.outgoing = [])
      (hnothing : data = [] → s.produced = s₀.produced) : TlsSendCall s₀ data s
  | raised {s : State} (n : Nat) (held : List UInt8) (hpc : s.pc = .idle)
      (hresult : ∀ bytes, s.result ≠ some (.returned bytes))
      (hplain : s.plain = s₀.plain ++ data.take n) (hciphered : Ciphered s₀ s held) :
      TlsSendCall s₀ data s

namespace TlsSendCall

variable {data : List UInt8} {offset : Nat}

/-- The head of the loop, where everything was flushed or nothing was written. -/
theorem writeLoop (hresult : s.result = none) (hplain : s.plain = s₀.plain ++ data.take offset)
    (hciphered : Ciphered s₀ s [])
    (hempty : data ≠ [] → offset ≠ 0 → s.outgoing = [])
    (hnothing : data = [] → s.produced = s₀.produced) :
    TlsSendCall s₀ data (s.writeLoop data offset) := by
  rw [State.writeLoop]
  split
  next hlt => exact .writing rfl hresult hlt hplain hciphered
  next hge =>
    refine .returned rfl ?_ hciphered (fun hdata => hempty hdata ?_) hnothing
    · show s.plain = s₀.plain ++ data
      rw [hplain, List.take_of_length_le (by omega)]
    · have := List.length_pos_of_ne_nil hdata
      omega

/-- The head of the loop of `_flush`. -/
theorem flushLoop (hresult : s.result = none) (hdata : data ≠ []) (hplain : s.plain = s₀.plain ++ data.take offset)
    (hciphered : Ciphered s₀ s []) :
    TlsSendCall s₀ data (s.flushLoop limits (.tlsSendAll data offset)) := by
  rw [State.flushLoop]
  split
  next hout => exact writeLoop hresult hplain hciphered (fun _ _ => hout) (fun h => absurd h hdata)
  next hout =>
    refine .flushing rfl hresult hdata hplain ?_
    -- the block that is taken from `_outgoing` is what is held now
    obtain ⟨bytes, hproduced, horder⟩ := hciphered
    refine ⟨bytes, hproduced, ?_⟩
    show s.accepted ++ (s.outgoing.take limits.chunkBytes).drop 0 ++
      s.outgoing.drop limits.chunkBytes = _
    rw [List.drop_zero, List.append_assoc, List.take_append_drop, ← horder, List.append_nil]

/-- One event of the call. -/
theorem step (h : TlsSendCall s₀ data s) (he : e.isCall = false)
    (hstep : Pgwire.Channels.step limits s e = some s') : TlsSendCall s₀ data s' := by
  cases h with
  | returned hpc => exact absurd hstep (no_step_idle hpc he)
  | raised n held hpc => exact absurd hstep (no_step_idle hpc he)
  | @writing _ offset hpc hresult hlt hplain hciphered =>
    have hdata : data ≠ [] := List.ne_nil_of_length_pos (by omega)
    cases writeMove_of_step hpc he hstep with
    | passed => exact .writing rfl hresult hlt hplain hciphered
    | raised produced kind uncertain =>
      exact .raised offset [] rfl (fun _ h => nomatch h) hplain (hciphered.produce produced)
    | moved produced n hn =>
      refine flushLoop hresult hdata ?_ (hciphered.produce produced)
      show s.plain ++ (data.drop offset).take n = _
      rw [hplain, List.append_assoc, List.take_add]
  | @flushing _ block pos offset hpc hresult hdata hplain hciphered =>
    cases sendMove_of_step hpc he hstep with
    | passed => exact .flushing rfl hresult hdata hplain hciphered
    | raised kind uncertain =>
      exact .raised offset (block.drop pos) rfl (fun _ h => nomatch h) hplain hciphered
    | moved n hn =>
      have hmoved := hciphered.accept n
      rw [List.drop_drop] at hmoved
      rw [State.sendLoop]
      split
      next hlt => exact .flushing rfl hresult hdata hplain hmoved
      next hge =>
        have hnil : block.drop (pos + n) = [] := List.drop_eq_nil_of_le (by omega)
        rw [hnil] at hmoved
        exact flushLoop hresult hdata hplain hmoved

end TlsSendCall

/-! ### `TlsChannel.recv_exact` -/

/-- A call of `TlsChannel.recv_exact` so far: what was taken of the decrypted bytes is in the
buffer. -/
inductive TlsRecvCall (s₀ : State) (size : Nat) : State → Prop
  | going {s : State} {checked : Bool} {buffer : List UInt8}
      (hpc : s.pc = .reading checked size buffer ∨
        (∃ maximum, s.pc = .receiving checked maximum (.feed size buffer)) ∨
        ∃ block pos, s.pc = .sending checked block pos (.flush (.tlsRecvExact size buffer)))
      (hresult : s.result = none) (hlt : buffer.length < size)
      (htaken : s.decrypted.taken = s₀.decrypted.taken ++ buffer) : TlsRecvCall s₀ size s
  | returned {s : State} {bytes : List UInt8} (hpc : s.pc = .idle)
      (hresult : s.result = some (.returned bytes)) (hsize : bytes.length = size)
      (htaken : s.decrypted.taken = s₀.decrypted.taken ++ bytes) : TlsRecvCall s₀ size s
  | raised {s : State} {buffer : List UInt8} (hpc : s.pc = .idle)
      (hresult : ∀ bytes, s.result ≠ some (.returned bytes)) (hlt : buffer.length < size)
      (htaken : s.decrypted.taken = s₀.decrypted.taken ++ buffer) : TlsRecvCall s₀ size s

namespace TlsRecvCall

variable {size : Nat} {buffer : List UInt8}

/-- The head of the loop. -/
theorem readLoop (hresult : s.result = none) (hle : buffer.length ≤ size)
    (htaken : s.decrypted.taken = s₀.decrypted.taken ++ buffer) :
    TlsRecvCall s₀ size (s.readLoop size buffer) := by
  rw [State.readLoop]
  split
  next hlt => exact .going (.inl (Eq.refl (Pc.reading false size buffer))) hresult hlt htaken
  next hge => exact .returned rfl rfl (by omega) htaken

/-- The head of the loop of `_flush`. -/
theorem flushLoop (hresult : s.result = none) (hlt : buffer.length < size)
    (htaken : s.decrypted.taken = s₀.decrypted.taken ++ buffer) :
    TlsRecvCall s₀ size (s.flushLoop limits (.tlsRecvExact size buffer)) := by
  rw [State.flushLoop]
  split
  · exact .going (.inr (.inl ⟨_, Eq.refl (Pc.receiving false _ (.feed size buffer))⟩)) hresult hlt htaken
  · exact .going (.inr (.inr ⟨_, _, Eq.refl (Pc.sending false _ _ (.flush (.tlsRecvExact size buffer)))⟩))
      hresult hlt htaken

/-- One event of the call. -/
theorem step (h : TlsRecvCall s₀ size s) (he : e.isCall = false)
    (hstep : Pgwire.Channels.step limits s e = some s') : TlsRecvCall s₀ size s' := by
  cases h with
  | returned hpc => exact absurd hstep (no_step_idle hpc he)
  | raised hpc => exact absurd hstep (no_step_idle hpc he)
  | @going checked buffer hpc hresult hlt htaken =>
    rcases hpc with hpc | ⟨maximum, hpc⟩ | ⟨block, pos, hpc⟩
    · cases readMove_of_step hpc he hstep with
      | passed => exact .going (.inl (Eq.refl (Pc.reading true size buffer))) hresult hlt htaken
      | raised arrived produced kind uncertain =>
        exact .raised rfl (fun _ h => nomatch h) hlt htaken
      | wanted arrived produced => exact flushLoop hresult hlt htaken
      | took arrived produced n hn hleft =>
        refine readLoop hresult ?_ ?_
        · rw [List.length_append, List.length_take]
          omega
        · show s.decrypted.taken ++ (s.decrypted.arrive arrived).left.take n = _
          rw [htaken, List.append_assoc]
    · cases recvMove_of_step hpc he hstep with
      | passed =>
        exact .going (.inr (.inl ⟨maximum, Eq.refl (Pc.receiving true maximum (.feed size buffer))⟩))
          hresult hlt htaken
      | raised arrived kind uncertain => exact .raised rfl (fun _ h => nomatch h) hlt htaken
      | waited arrived =>
        exact .going (.inr (.inl ⟨maximum, Eq.refl (Pc.receiving false maximum (.feed size buffer))⟩))
          hresult hlt htaken
      | took arrived n hn hleft => exact readLoop hresult (Nat.le_of_lt hlt) htaken
    · cases sendMove_of_step hpc he hstep with
      | passed =>
        exact .going (.inr (.inr ⟨block, pos,
          Eq.refl (Pc.sending true block pos (.flush (.tlsRecvExact size buffer)))⟩)) hresult hlt htaken
      | raised kind uncertain => exact .raised rfl (fun _ h => nomatch h) hlt htaken
      | moved n hn =>
        rw [State.sendLoop]
        split
        · exact .going (.inr (.inr ⟨block, pos + n,
            Eq.refl (Pc.sending false block (pos + n) (.flush (.tlsRecvExact size buffer)))⟩)) hresult hlt
            htaken
        · exact flushLoop hresult hlt htaken

end TlsRecvCall

/-! ### Checks -/

/-- The check of this round has passed. -/
def isChecked : Pc → Bool
  | .idle => false
  | .sending checked _ _ _ | .receiving checked _ _ | .writing checked _ _ | .reading checked _ _ =>
      checked

/-- The heads of the loops are before a check. -/
theorem isChecked_flushLoop (s : State) (flusher : Flusher) :
    isChecked (s.flushLoop limits flusher).pc = false := by
  rw [State.flushLoop]
  split
  · cases flusher with
    | tlsSendAll view offset =>
      rw [State.flushed, State.writeLoop]
      split <;> rfl
    | tlsRecvExact size buffer => rfl
  · rfl

/-- So is the one of `RawChannel.send_all`. -/
theorem isChecked_sendLoop (s : State) (view : List UInt8) (offset : Nat) (sender : Sender) :
    isChecked (s.sendLoop limits view offset sender).pc = false := by
  unfold State.sendLoop
  split
  · rfl
  · cases sender with
    | caller => rfl
    | flush flusher => exact isChecked_flushLoop s flusher

/-- So are those of `recv_exact`. -/
theorem isChecked_recvLoop (s : State) (size : Nat) (buffer : List UInt8) :
    isChecked (s.recvLoop size buffer).pc = false := by
  rw [State.recvLoop]
  split <;> rfl

theorem isChecked_readLoop (s : State) (size : Nat) (buffer : List UInt8) :
    isChecked (s.readLoop size buffer).pc = false := by
  rw [State.readLoop]
  split <;> rfl

/-- An operation needs a round that is checked. -/
theorem isChecked_of_isOperation (he : e.isOperation = true) (hstep : step limits s e = some s') :
    isChecked s.pc = true := by
  cases e with
  | call | check => exact nomatch he
  | send | recv | write | read =>
    rw [step] at hstep
    split at hstep
    next hpc => rw [hpc]; rfl
    next => exact nomatch hstep

/-- A round is checked by a check that passes, and by nothing else. -/
theorem passed_of_isChecked (hchecked : isChecked s'.pc = true)
    (hstep : step limits s e = some s') : e = .check .passed := by
  have not_at {s : State} (h : isChecked s.pc = false) (h' : isChecked s.pc = true) :
      e = .check .passed := by rw [h] at h'; exact nomatch h'
  by_cases he : e.isCall = true
  · cases e with
    | call call =>
      rw [step] at hstep
      split at hstep
      · obtain rfl := Option.some_inj.mp hstep
        cases call with
        | sendAll data => exact not_at (@isChecked_sendLoop limits _ data 0 .caller) hchecked
        | recvExact size => exact not_at (isChecked_recvLoop _ size []) hchecked
        | tlsSendAll data =>
          rw [State.begin, State.writeLoop] at hchecked
          split at hchecked <;> exact nomatch hchecked
        | tlsRecvExact size => exact not_at (isChecked_readLoop _ size []) hchecked
      · exact nomatch hstep
    | check | send | recv | write | read => exact nomatch he
  · rw [Bool.not_eq_true] at he
    cases hpc : s.pc with
    | idle => exact absurd hstep (no_step_idle hpc he)
    | sending checked view offset sender =>
      cases sendMove_of_step hpc he hstep with
      | passed => rfl
      | raised kind uncertain => exact nomatch hchecked
      | moved n hn => exact not_at (isChecked_sendLoop _ _ _ _) hchecked
    | receiving checked maximum receiver =>
      cases recvMove_of_step hpc he hstep with
      | passed => rfl
      | raised arrived kind uncertain => exact nomatch hchecked
      | waited arrived => exact nomatch hchecked
      | took arrived n hn hleft =>
        cases receiver with
        | recvExact size buffer => exact not_at (isChecked_recvLoop _ _ _) hchecked
        | feed size buffer => exact not_at (isChecked_readLoop _ _ _) hchecked
    | writing checked view offset =>
      cases writeMove_of_step hpc he hstep with
      | passed => rfl
      | raised produced kind uncertain => exact nomatch hchecked
      | moved produced n hn => exact not_at (isChecked_flushLoop _ _) hchecked
    | reading checked size buffer =>
      cases readMove_of_step hpc he hstep with
      | passed => rfl
      | raised arrived produced kind uncertain => exact nomatch hchecked
      | wanted arrived produced => exact not_at (isChecked_flushLoop _ _) hchecked
      | took arrived produced n hn hleft => exact not_at (isChecked_readLoop _ _ _) hchecked

/-- An operation comes right after a check that passed. -/
theorem checked_before {before after : List Event} (hidle : s.pc = .idle)
    (he : e.isOperation = true) (hrun : run (step limits) s (before ++ e :: after) = some s') :
    before.getLast? = some (.check .passed) := by
  rw [run_append, Option.bind_eq_some_iff] at hrun
  obtain ⟨s₁, hbefore, hrun⟩ := hrun
  obtain ⟨s₂, hstep, -⟩ := run_cons_eq_some.mp hrun
  have hchecked := isChecked_of_isOperation he hstep
  rcases List.eq_nil_or_concat before with rfl | ⟨front, last, rfl⟩
  · -- nothing was checked before the first event
    obtain rfl := Option.some_inj.mp hbefore
    rw [hidle] at hchecked
    exact nomatch hchecked
  · rw [List.concat_eq_append, run_append, Option.bind_eq_some_iff] at hbefore
    obtain ⟨s₃, -, hrunLast⟩ := hbefore
    obtain ⟨s₄, hlast, hnil⟩ := run_cons_eq_some.mp hrunLast
    obtain rfl := Option.some_inj.mp hnil
    rw [List.concat_eq_append, List.getLast?_concat, passed_of_isChecked hchecked hlast]

/-! ### All together -/

/-- Calls of `RawChannel.recv_exact`, one after the other, that all returned. -/
inductive Recvs (limits : Limits) : State → List Nat → List (List UInt8) → State → Prop
  | nil (s : State) : Recvs limits s [] [] s
  | cons {s s₁ s' : State} {size : Nat} {bytes : List UInt8} {sizes : List Nat}
      {results : List (List UInt8)} {events : List Event} (hcalls : NoCall events)
      (hrun : run (step limits) s (.call (.recvExact size) :: events) = some s₁)
      (hresult : s₁.result = some (.returned bytes)) (hrest : Recvs limits s₁ sizes results s') :
      Recvs limits s (size :: sizes) (bytes :: results) s'

/-- A call of `RawChannel.send_all`. -/
theorem sendCall_of_run {data : List UInt8} (hcalls : NoCall events)
    (hrun : run (step limits) s (.call (.sendAll data) :: events) = some s') : SendCall s data s' := by
  have hbegin : SendCall s data (s.begin limits (.sendAll data)) :=
    @SendCall.sendLoop limits s { s with result := none } data 0 rfl (by simp)
  exact run_call SendCall.step hbegin hcalls hrun

/-- A call of `RawChannel.recv_exact`. -/
theorem recvCall_of_run {size : Nat} (hcalls : NoCall events)
    (hrun : run (step limits) s (.call (.recvExact size) :: events) = some s') :
    RecvCall s size s' := by
  have hbegin : RecvCall s size (s.begin limits (.recvExact size)) :=
    @RecvCall.recvLoop s { s with result := none } size [] rfl (Nat.zero_le size) (by simp)
  exact run_call RecvCall.step hbegin hcalls hrun

/-- A call of `TlsChannel.send_all`. -/
theorem tlsSendCall_of_run {data : List UInt8} (hcalls : NoCall events)
    (hrun : run (step limits) s (.call (.tlsSendAll data) :: events) = some s') :
    TlsSendCall s data s' := by
  have hbegin : TlsSendCall s data (s.begin limits (.tlsSendAll data)) :=
    @TlsSendCall.writeLoop s { s with result := none } data 0 rfl (by simp) (Ciphered.refl s)
      (fun _ h => absurd rfl h) fun _ => rfl
  exact run_call TlsSendCall.step hbegin hcalls hrun

/-- A call of `TlsChannel.recv_exact`. -/
theorem tlsRecvCall_of_run {size : Nat} (hcalls : NoCall events)
    (hrun : run (step limits) s (.call (.tlsRecvExact size) :: events) = some s') :
    TlsRecvCall s size s' := by
  have hbegin : TlsRecvCall s size (s.begin limits (.tlsRecvExact size)) :=
    @TlsRecvCall.readLoop s { s with result := none } size [] rfl (Nat.zero_le size) (by simp)
  exact run_call TlsRecvCall.step hbegin hcalls hrun

/-- What `recv_exact` returned, call after call, is what was taken from the stream. -/
theorem Recvs.exact {sizes : List Nat} {results : List (List UInt8)}
    (h : Recvs limits s sizes results s') :
    results.map List.length = sizes ∧ s'.inbound.taken = s.inbound.taken ++ results.flatten := by
  induction h with
  | nil s => simp
  | cons hcalls hrun hresult hrest ih =>
    obtain ⟨hlengths, htaken⟩ := ih
    cases recvCall_of_run hcalls hrun with
    | returned hpc hresult' hsize htaken' =>
      obtain rfl : _ = _ := by simpa [hresult] using hresult'
      rw [List.map_cons, hlengths, hsize, htaken, htaken', List.flatten_cons, List.append_assoc]
      exact ⟨rfl, rfl⟩
    | raised hpc hraised => exact absurd hresult (hraised _)
    | going hpc hnone => exact absurd (hnone.symm.trans hresult) (nomatch ·)

/-- **The channels move bytes exactly.** Whatever the socket and the TLS object answer, in every state
inside or after a call: `send_all` had a beginning of its data accepted, all of it where it returned;
`recv_exact` took the next bytes of the stream, `size` of them and no more where it returned, also
over several calls; the TLS object took a beginning of the data, and what it produced was sent in
order, all of it where `send_all` returned. No operation happens without a check before it. -/
theorem transport_exact (limits : Limits) :
    (∀ (s s' : State) (data : List UInt8) (events : List Event), NoCall events →
      run (step limits) s (.call (.sendAll data) :: events) = some s' →
      (∃ n, s'.accepted = s.accepted ++ data.take n) ∧
        ∀ bytes, s'.result = some (.returned bytes) → s'.accepted = s.accepted ++ data) ∧
    (∀ (s s' : State) (size : Nat) (events : List Event), NoCall events →
      run (step limits) s (.call (.recvExact size) :: events) = some s' →
      (∃ piece, piece.length ≤ size ∧ s'.inbound.taken = s.inbound.taken ++ piece) ∧
        ∀ bytes, s'.result = some (.returned bytes) →
          s'.inbound.taken = s.inbound.taken ++ bytes ∧ bytes.length = size ∧
            bytes = (s'.inbound.all.drop s.inbound.taken.length).take size) ∧
    (∀ (s s' : State) (sizes : List Nat) (results : List (List UInt8)),
      Recvs limits s sizes results s' →
      results.map List.length = sizes ∧ s'.inbound.taken = s.inbound.taken ++ results.flatten) ∧
    (∀ (s s' : State) (e : Event) (before after : List Event), s.pc = .idle →
      e.isOperation = true → run (step limits) s (before ++ e :: after) = some s' →
      before.getLast? = some (.check .passed)) ∧
    (∀ (s s' : State) (data : List UInt8) (events : List Event), NoCall events →
      run (step limits) s (.call (.tlsSendAll data) :: events) = some s' →
      (∃ n, s'.plain = s.plain ++ data.take n) ∧
      (∃ bytes held, s'.produced = s.produced ++ bytes ∧
        s'.accepted ++ held ++ s'.outgoing = s.accepted ++ s.outgoing ++ bytes) ∧
      ∀ r, s'.result = some (.returned r) →
        s'.plain = s.plain ++ data ∧
          ∃ bytes, s'.produced = s.produced ++ bytes ∧
            (data = [] → bytes = []) ∧
            (data ≠ [] → s'.accepted = s.accepted ++ s.outgoing ++ bytes)) ∧
    (∀ (s s' : State) (size : Nat) (events : List Event), NoCall events →
      run (step limits) s (.call (.tlsRecvExact size) :: events) = some s' →
      (∃ piece, piece.length ≤ size ∧ s'.decrypted.taken = s.decrypted.taken ++ piece) ∧
        ∀ bytes, s'.result = some (.returned bytes) →
          s'.decrypted.taken = s.decrypted.taken ++ bytes ∧ bytes.length = size ∧
            bytes = (s'.decrypted.all.drop s.decrypted.taken.length).take size) := by
  refine ⟨fun s s' data events hcalls hrun => ?_, fun s s' size events hcalls hrun => ?_,
    fun s s' sizes results h => h.exact,
    fun s s' e before after hidle he hrun => checked_before hidle he hrun,
    fun s s' data events hcalls hrun => ?_, fun s s' size events hcalls hrun => ?_⟩
  · cases sendCall_of_run hcalls hrun with
    | going hpc hresult hlt haccepted =>
      exact ⟨⟨_, haccepted⟩, fun bytes h => nomatch hresult.symm.trans h⟩
    | returned hpc haccepted =>
      exact ⟨⟨data.length, by rw [haccepted, List.take_length]⟩, fun _ _ => haccepted⟩
    | raised n hpc hresult haccepted => exact ⟨⟨n, haccepted⟩, fun bytes h => absurd h (hresult bytes)⟩
  · cases recvCall_of_run hcalls hrun with
    | going hpc hresult hlt htaken =>
      exact ⟨⟨_, Nat.le_of_lt hlt, htaken⟩, fun bytes h => nomatch hresult.symm.trans h⟩
    | @returned _ hpc hresult hsize htaken =>
      refine ⟨⟨_, Nat.le_of_eq hsize, htaken⟩, fun bytes h => ?_⟩
      obtain rfl := Result.returned.inj (Option.some_inj.mp (h.symm.trans hresult))
      exact ⟨htaken, hsize, by rw [← hsize]; exact (Supply.next_of_taken htaken).symm⟩
    | raised hpc hresult hlt htaken =>
      exact ⟨⟨_, Nat.le_of_lt hlt, htaken⟩, fun bytes h => absurd h (hresult bytes)⟩
  · cases tlsSendCall_of_run hcalls hrun with
    | writing hpc hresult hlt hplain hciphered =>
      obtain ⟨bytes, hproduced, horder⟩ := hciphered
      exact ⟨⟨_, hplain⟩, ⟨bytes, _, hproduced, horder⟩, fun r h => nomatch hresult.symm.trans h⟩
    | flushing hpc hresult hdata hplain hciphered =>
      obtain ⟨bytes, hproduced, horder⟩ := hciphered
      exact ⟨⟨_, hplain⟩, ⟨bytes, _, hproduced, horder⟩, fun r h => nomatch hresult.symm.trans h⟩
    | returned hpc hplain hciphered hempty hnothing =>
      obtain ⟨bytes, hproduced, horder⟩ := hciphered
      refine ⟨⟨data.length, by rw [hplain, List.take_length]⟩, ⟨bytes, _, hproduced, horder⟩,
        fun r _ => ⟨hplain, bytes, hproduced, fun hdata => ?_, fun hdata => ?_⟩⟩
      · simpa [hnothing hdata] using hproduced
      · rw [← horder, hempty hdata, List.append_nil, List.append_nil]
    | raised n held hpc hresult hplain hciphered =>
      obtain ⟨bytes, hproduced, horder⟩ := hciphered
      exact ⟨⟨n, hplain⟩, ⟨bytes, held, hproduced, horder⟩, fun r h => absurd h (hresult r)⟩
  · cases tlsRecvCall_of_run hcalls hrun with
    | going hpc hresult hlt htaken =>
      exact ⟨⟨_, Nat.le_of_lt hlt, htaken⟩, fun bytes h => nomatch hresult.symm.trans h⟩
    | @returned _ hpc hresult hsize htaken =>
      refine ⟨⟨_, Nat.le_of_eq hsize, htaken⟩, fun bytes h => ?_⟩
      obtain rfl := Result.returned.inj (Option.some_inj.mp (h.symm.trans hresult))
      exact ⟨htaken, hsize, by rw [← hsize]; exact (Supply.next_of_taken htaken).symm⟩
    | raised hpc hresult hlt htaken =>
      exact ⟨⟨_, Nat.le_of_lt hlt, htaken⟩, fun bytes h => absurd h (hresult bytes)⟩

end

/-- Blocks of two bytes. -/
def pairs : Limits := ⟨2, Nat.two_pos⟩

/-- Three bytes over TLS: the object takes them at once, and the socket takes its output after a
timeout, one byte and one byte more at a time. -/
def slowSend : List Event :=
  [.check .passed, .write [7, 8, 9] (.returned (some 3)), .check .passed, .send (.timeout false),
    .check .passed, .send (.returned (some 1)), .check .passed, .send (.returned (some 1)),
    .check .passed, .send (.returned (some 1))]

/-- A run of it, and what the theorem says there. -/
theorem transport_exact_slow :
    ∃ s', run (step pairs) .init (.call (.tlsSendAll [1, 2, 3]) :: slowSend) = some s' ∧
      s'.plain = [1, 2, 3] ∧ ∃ bytes, s'.produced = bytes ∧ s'.accepted = bytes := by
  obtain ⟨s', hrun, hresult⟩ : ∃ s',
      run (step pairs) .init (.call (.tlsSendAll [1, 2, 3]) :: slowSend) = some s' ∧
        s'.result = some (.returned []) := ⟨_, rfl, rfl⟩
  obtain ⟨hplain, bytes, hproduced, -, haccepted⟩ :=
    ((transport_exact pairs).2.2.2.2.1 _ s' [1, 2, 3] slowSend (by unfold NoCall; decide) hrun).2.2 [] hresult
  refine ⟨s', hrun, by simpa [State.init] using hplain, bytes, by simpa [State.init] using hproduced, ?_⟩
  simpa [State.init] using haccepted (by decide)

end MaskGateway.Proofs.Channels
