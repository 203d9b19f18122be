import MaskGateway.Frontend.Coordinator

/-!
# `MaskGateway.Proofs.Frontend.Requests`: the requests that wait

`Requests` is what holds of the list of requests beside the epoch and the sequence of the
coordinator: a request was overtaken exactly when the guard of its continuation fails, and no two
mutations are on their way. Every entry point does one of a few things to the list, and there is a
lemma for each of them.
-/

set_option autoImplicit false

namespace MaskGateway.Proofs.Frontend

open Lib MaskGateway.Frontend

/-- The requests of a client that belong to a coordinator. -/
structure Requests (c : Coordinator) (waiting : List Waiting) (writing elsewhere : Bool) : Prop where
  tickets : (waiting.map Waiting.ticket).Nodup
  bound : ∀ r ∈ waiting, r.ticket ≤ c.sequence
  overtaken : ∀ r ∈ waiting, r.overtaken = !r.current c
  flight : ∀ r ∈ waiting, r.inFlight = true → writing = true ∧ elsewhere = false
  single : ∀ r ∈ waiting, ∀ r' ∈ waiting, r.inFlight = true → r'.inFlight = true →
    r.ticket = r'.ticket
  elsewhere : elsewhere = true → writing = true

/-- The guard looks at the epoch, the sequence and the end only. -/
theorem current_congr {c c' : Coordinator} (hclosed : c'.closed = c.closed)
    (hepoch : c'.epoch = c.epoch) (hsequence : c'.sequence = c.sequence) (r : Waiting) :
    r.current c' = r.current c := by
  simp only [Waiting.current, hclosed, hepoch, hsequence]

/-- A request whose guard holds has the newest ticket. -/
theorem ticket_of_current {c : Coordinator} {r : Waiting} (h : r.current c = true) :
    r.ticket = c.sequence := by
  simp only [Waiting.current, Bool.and_eq_true, beq_iff_eq] at h
  exact h.2

/-- A request of an older ticket is not current. -/
theorem not_current_of_lt {c : Coordinator} {r : Waiting} (h : r.ticket < c.sequence) :
    r.current c = false := by
  cases hr : r.current c with
  | false => rfl
  | true =>
      have := ticket_of_current hr
      omega

/-- Nothing waits on a coordinator that is closed. -/
theorem not_current_of_closed {c : Coordinator} (h : c.closed = true) (r : Waiting) :
    r.current c = false := by
  simp [Waiting.current, h]

section
variable {c c' : Coordinator} {waiting : List Waiting} {writing elsewhere : Bool}

/-- What moves neither the epoch nor the sequence leaves the requests as they are. -/
theorem Requests.congr (h : Requests c waiting writing elsewhere) (hclosed : c'.closed = c.closed)
    (hepoch : c'.epoch = c.epoch) (hsequence : c'.sequence = c.sequence) :
    Requests c' waiting writing elsewhere where
  tickets := h.tickets
  bound r hr := by rw [hsequence]; exact h.bound r hr
  overtaken r hr := by rw [current_congr hclosed hepoch hsequence]; exact h.overtaken r hr
  flight := h.flight
  single := h.single
  elsewhere := h.elsewhere

/-- A request that has been answered is gone. -/
theorem Requests.filter (h : Requests c waiting writing elsewhere) (p : Waiting → Bool) :
    Requests c (waiting.filter p) writing elsewhere where
  tickets := h.tickets.sublist (List.filter_sublist.map _)
  bound r hr := h.bound r (List.mem_of_mem_filter hr)
  overtaken r hr := h.overtaken r (List.mem_of_mem_filter hr)
  flight r hr := h.flight r (List.mem_of_mem_filter hr)
  single r hr r' hr' := h.single r (List.mem_of_mem_filter hr) r' (List.mem_of_mem_filter hr')
  elsewhere := h.elsewhere

/-- A request that was overtaken is one that waits. -/
theorem mem_overtake {r : Waiting} :
    r ∈ overtake waiting ↔ ∃ r' ∈ waiting, { r' with overtaken := true } = r := by
  rw [overtake, List.mem_map]

/-- The tickets stay. -/
theorem map_ticket_overtake :
    (overtake waiting).map Waiting.ticket = waiting.map Waiting.ticket := by
  rw [overtake, List.map_map]
  rfl

/-- Where no request is current any more, all are overtaken. -/
theorem Requests.overtake (h : Requests c waiting writing elsewhere)
    (hsequence : c.sequence ≤ c'.sequence) (hstale : ∀ r ∈ waiting, r.current c' = false) :
    Requests c' (Frontend.overtake waiting) writing elsewhere where
  tickets := by rw [map_ticket_overtake]; exact h.tickets
  bound r hr := by
    obtain ⟨r', hr', rfl⟩ := mem_overtake.mp hr
    exact Nat.le_trans (h.bound r' hr') hsequence
  overtaken r hr := by
    obtain ⟨r', hr', rfl⟩ := mem_overtake.mp hr
    show true = !r'.current c'
    rw [hstale r' hr']
    rfl
  flight r hr := by
    obtain ⟨r', hr', rfl⟩ := mem_overtake.mp hr
    exact h.flight r' hr'
  single r hr s hs := by
    obtain ⟨r', hr', rfl⟩ := mem_overtake.mp hr
    obtain ⟨s', hs', rfl⟩ := mem_overtake.mp hs
    exact h.single r' hr' s' hs'
  elsewhere := h.elsewhere

/-- A newer ticket makes every request stale. -/
theorem Requests.stale (h : Requests c waiting writing elsewhere)
    (hsequence : c.sequence < c'.sequence) : ∀ r ∈ waiting, r.current c' = false := by
  intro r hr
  have := h.bound r hr
  exact not_current_of_lt (by omega)

/-- A new request has the newest ticket; a mutation is sent only when none is on its way. -/
theorem Requests.await (h : Requests c waiting writing elsewhere) {purpose : Purpose}
    (hsequence : c.sequence < c'.sequence) (hopen : c'.closed = false) {writing' : Bool}
    (hwriting : writing = true → writing' = true)
    (hflight : Waiting.inFlight ⟨c'.epoch, c'.sequence, purpose, false⟩ = true →
      writing = false ∧ writing' = true) :
    Requests c' (⟨c'.epoch, c'.sequence, purpose, false⟩ :: Frontend.overtake waiting) writing'
      elsewhere := by
  have hold := h.overtake (Nat.le_of_lt hsequence) (h.stale hsequence)
  -- a mutation that is on its way keeps the new one from being sent
  have hclash : ∀ r ∈ Frontend.overtake waiting, r.inFlight = true →
      Waiting.inFlight ⟨c'.epoch, c'.sequence, purpose, false⟩ = true → False := by
    intro r hr hin hnew
    have hwas := (hold.flight r hr hin).1
    rw [(hflight hnew).1] at hwas
    exact nomatch hwas
  constructor
  case tickets =>
    rw [List.map_cons, List.nodup_cons]
    refine ⟨?_, hold.tickets⟩
    intro hmem
    obtain ⟨r, hr, hticket⟩ := List.mem_map.mp hmem
    obtain ⟨r', hr', rfl⟩ := mem_overtake.mp hr
    have hle := h.bound r' hr'
    have heq : r'.ticket = c'.sequence := hticket
    omega
  case bound =>
    intro r hr
    rcases List.mem_cons.mp hr with rfl | hr
    · exact Nat.le_refl _
    · exact hold.bound r hr
  case overtaken =>
    intro r hr
    rcases List.mem_cons.mp hr with rfl | hr
    · simp [Waiting.current, hopen]
    · exact hold.overtaken r hr
  case flight =>
    intro r hr hin
    rcases List.mem_cons.mp hr with rfl | hr
    · refine ⟨(hflight hin).2, ?_⟩
      cases he : elsewhere with
      | false => rfl
      | true =>
          have := h.elsewhere he
          rw [(hflight hin).1] at this
          exact nomatch this
    · obtain ⟨hw, he⟩ := hold.flight r hr hin
      exact ⟨hwriting hw, he⟩
  case single =>
    intro r hr s hs hin hsin
    rcases List.mem_cons.mp hr with rfl | hr
    · rcases List.mem_cons.mp hs with rfl | hs
      · rfl
      · exact (hclash s hs hsin hin).elim
    · rcases List.mem_cons.mp hs with rfl | hs
      · exact (hclash r hr hin hsin).elim
      · exact hold.single r hr s hs hin hsin
  case elsewhere => exact fun he => hwriting (h.elsewhere he)

/-- The outcome of a mutation leaves the rest of its request. -/
theorem settle_ticket (r : Waiting) (answer : Except Fault Outcome) :
    (r.settle answer).ticket = r.ticket ∧ (r.settle answer).overtaken = r.overtaken ∧
      (r.settle answer).current c = r.current c := by
  rw [Waiting.settle]
  cases r.purpose <;> exact ⟨rfl, rfl, rfl⟩

/-- A request with its outcome is not on its way. -/
theorem settle_inFlight (r : Waiting) (answer : Except Fault Outcome) :
    (r.settle answer).inFlight = false := by
  cases r with
  | mk epoch ticket purpose overtaken => cases purpose <;> rfl

/-- The mutation that is on its way has its outcome: none is any more. -/
theorem Requests.settles (h : Requests c waiting writing elsewhere) {r : Waiting} (hr : r ∈ waiting)
    (hin : r.inFlight = true) (answer : Except Fault Outcome) :
    Requests c
      (waiting.map fun other => if other.ticket = r.ticket then other.settle answer else other)
      false elsewhere := by
  have hself : ∀ s : Waiting,
      (if s.ticket = r.ticket then s.settle answer else s).ticket = s.ticket ∧
      (if s.ticket = r.ticket then s.settle answer else s).overtaken = s.overtaken ∧
      (if s.ticket = r.ticket then s.settle answer else s).current c = s.current c := by
    intro s
    split
    · exact settle_ticket s answer
    · exact ⟨rfl, rfl, rfl⟩
  have hnone : ∀ s ∈ waiting,
      (if s.ticket = r.ticket then s.settle answer else s).inFlight = false := by
    intro s hs
    by_cases hticket : s.ticket = r.ticket
    · rw [if_pos hticket]
      exact settle_inFlight s answer
    · rw [if_neg hticket]
      cases hsin : s.inFlight with
      | false => rfl
      | true => exact absurd (h.single s hs r hr hsin hin) hticket
  constructor
  case tickets =>
    rw [List.map_map]
    have hmap : waiting.map (Waiting.ticket ∘ fun other =>
        if other.ticket = r.ticket then other.settle answer else other) =
        waiting.map Waiting.ticket := List.map_congr_left fun s _ => (hself s).1
    rw [hmap]
    exact h.tickets
  case bound =>
    intro s hs
    obtain ⟨s', hs', rfl⟩ := List.mem_map.mp hs
    rw [(hself s').1]
    exact h.bound s' hs'
  case overtaken =>
    intro s hs
    obtain ⟨s', hs', rfl⟩ := List.mem_map.mp hs
    rw [(hself s').2.1, (hself s').2.2]
    exact h.overtaken s' hs'
  case flight =>
    intro s hs hsin
    obtain ⟨s', hs', rfl⟩ := List.mem_map.mp hs
    rw [hnone s' hs'] at hsin
    exact nomatch hsin
  case single =>
    intro s hs t _ hsin
    obtain ⟨s', hs', rfl⟩ := List.mem_map.mp hs
    rw [hnone s' hs'] at hsin
    exact nomatch hsin
  case elsewhere =>
    intro he
    rw [(h.flight r hr hin).2] at he
    exact nomatch he

/-- Somebody else sends when nothing is on its way. -/
theorem Requests.othersSend (h : Requests c waiting writing elsewhere) (hwriting : writing = false) :
    Requests c waiting true true where
  tickets := h.tickets
  bound := h.bound
  overtaken := h.overtaken
  flight r hr hin := by
    have := (h.flight r hr hin).1
    rw [hwriting] at this
    exact nomatch this
  single := h.single
  elsewhere _ := rfl

/-- Somebody else has the outcome. -/
theorem Requests.othersSettle (h : Requests c waiting writing elsewhere)
    (helsewhere : elsewhere = true) : Requests c waiting false false where
  tickets := h.tickets
  bound := h.bound
  overtaken := h.overtaken
  flight r hr hin := by
    have := (h.flight r hr hin).2
    rw [helsewhere] at this
    exact nomatch this
  single := h.single
  elsewhere he := nomatch he

/-- At most one mutation of the client is on its way. -/
theorem Requests.one (h : Requests c waiting writing elsewhere) :
    waiting.countP Waiting.inFlight + elsewhere.toNat ≤ 1 := by
  cases he : elsewhere with
  | true =>
      have hnone : waiting.countP Waiting.inFlight = 0 := by
        rw [List.countP_eq_zero]
        intro r hr hin
        have := (h.flight r hr hin).2
        rw [he] at this
        exact nomatch this
      simp [hnone]
  | false =>
      -- two of them would have one ticket
      have hone : (waiting.filter Waiting.inFlight).length ≤ 1 := by
        have hnodup : ((waiting.filter Waiting.inFlight).map Waiting.ticket).Nodup :=
          (h.filter Waiting.inFlight).tickets
        match hf : waiting.filter Waiting.inFlight with
        | [] => simp
        | [_] => simp
        | r :: s :: rest =>
            have hr : r ∈ waiting.filter Waiting.inFlight := by rw [hf]; simp
            have hs : s ∈ waiting.filter Waiting.inFlight := by rw [hf]; simp
            have heq := h.single r (List.mem_of_mem_filter hr) s (List.mem_of_mem_filter hs)
              (List.mem_filter.mp hr).2 (List.mem_filter.mp hs).2
            rw [hf] at hnodup
            simp [heq] at hnodup
      rw [List.countP_eq_length_filter]
      simpa using hone

/-- Two requests of one ticket are one. -/
theorem Requests.eq_of_ticket (h : Requests c waiting writing elsewhere) {r s : Waiting}
    (hr : r ∈ waiting) (hs : s ∈ waiting) (heq : r.ticket = s.ticket) : r = s :=
  List.inj_on_of_nodup_map h.tickets hr hs heq

end

end MaskGateway.Proofs.Frontend
