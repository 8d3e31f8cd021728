import MutualEdge.Sgx.Relay

/-! The links of the relay: on every link the frames sent and not yet delivered are, byte for byte, what
    the receiver has taken of the next one, what is on the wire and what the sender has still to write
    (`LinkInv`). -/

namespace MutualEdge.Sgx

abbrev Frame := List UInt8

variable {order : ByteOrder}

/-- Nothing is lost and nothing is made up between the sender and the receiver of a link. -/
def Flow (order : ByteOrder) (sent got : List Frame) (taken inflight unsent : List UInt8) : Prop :=
  ∃ pending, sent = got ++ pending ∧ wire order pending = taken ++ inflight ++ unsent

theorem Flow.begin {sent got : List Frame} {taken inflight : List UInt8}
    (h : Flow order sent got taken inflight []) (m : Frame) :
    Flow order (sent ++ [m]) got taken inflight (frame order m) := by
  obtain ⟨pending, rfl, hwire⟩ := h
  refine ⟨pending ++ [m], List.append_assoc .., ?_⟩
  rw [List.append_nil] at hwire
  rw [wire, List.flatMap_append, ← wire, hwire, List.flatMap_singleton]

theorem Flow.write {sent got : List Frame} {taken inflight bytes unsent : List UInt8}
    (h : Flow order sent got taken inflight (bytes ++ unsent)) :
    Flow order sent got taken (inflight ++ bytes) unsent := by
  obtain ⟨pending, hsent, hwire⟩ := h
  exact ⟨pending, hsent, by simpa only [List.append_assoc] using hwire⟩

theorem Flow.read {sent got : List Frame} {taken inflight bytes unsent : List UInt8}
    (h : Flow order sent got taken (bytes ++ inflight) unsent) :
    Flow order sent got (taken ++ bytes) inflight unsent := by
  obtain ⟨pending, hsent, hwire⟩ := h
  exact ⟨pending, hsent, by simpa only [List.append_assoc] using hwire⟩

/-- A call that is done has the next frame that was sent. -/
theorem Flow.receive {sent got : List Frame} {taken inflight unsent : List UInt8} {c : RecvCall}
    (h : Flow order sent got taken inflight unsent) (ht : c.Took order taken) (hd : c.done = true)
    (hfit : ∀ m, sent[got.length]? = some m → m.length < 2 ^ 31 ∧ m.length ≤ c.buf.length) :
    sent[got.length]? = some c.message ∧ Flow order sent (got ++ [c.message]) [] inflight unsent := by
  obtain ⟨pending, hsent, hwire⟩ := h
  cases pending with
  | nil =>
    have htaken : taken = [] := by
      have hnil : taken ++ (inflight ++ unsent) = [] := by
        rw [← List.append_assoc]
        exact hwire.symm
      exact (List.append_eq_nil_iff.mp hnil).1
    subst htaken
    unfold RecvCall.Took at ht
    unfold RecvCall.done at hd
    cases hlen : c.len with
    | none => simp [hlen] at hd
    | some len => simp [hlen] at ht
  | cons m pending =>
    have hm : sent[got.length]? = some m := by
      rw [hsent, List.getElem?_append_right le_rfl, Nat.sub_self]
      rfl
    obtain ⟨hsize, hbuf⟩ := hfit m hm
    have heq : taken ++ (inflight ++ unsent) = frame order m ++ wire order pending := by
      rw [← List.append_assoc, ← hwire, wire, wire, List.flatMap_cons]
    obtain ⟨-, hrest, hmessage⟩ := RecvCall.took_done ht hd heq hsize
    rw [hmessage hbuf]
    exact ⟨hm, pending, by simpa using hsent, by simpa using hrest.symm⟩

/-- A receiver that waits at an empty link, with nothing left to write at the other end, has got all
    that was sent. -/
theorem Flow.waiting {sent got : List Frame} {taken : List UInt8} {c : RecvCall}
    (h : Flow order sent got taken [] []) (ht : c.Took order taken) (hd : c.done = false)
    (hfit : ∀ m ∈ sent, m.length < 2 ^ 31) : sent = got := by
  obtain ⟨pending, rfl, hwire⟩ := h
  rw [List.append_nil, List.append_nil] at hwire
  rw [RecvCall.took_waiting ht hd hwire fun m hm => hfit m (List.mem_append_right _ hm),
    List.append_nil]

/-- Only the party that moves gets to another point of its program. -/
theorem update_pc {P : Pc → Prop} {points : Party → Pc} {p q : Party} {pc : Pc}
    (hself : q = p → P pc) (hother : q ≠ p → P (points q)) : P (Function.update points p pc q) := by
  by_cases hp : q = p
  · rw [hp, Function.update_self]
    exact hself hp
  · rw [Function.update_of_ne hp]
    exact hother hp

/-- What a party has taken of the next frame on a link; of a party that is gone nothing is known. -/
def Pc.Took (order : ByteOrder) (pc : Pc) (l : Link) (taken : List UInt8) : Prop :=
  match pc with
  | .receiving site call => if site.link = l then call.Took order taken else taken = []
  | .exited => True
  | _ => taken = []

/-- What a party has still to write to a link. -/
def Pc.Unsent (order : ByteOrder) (pc : Pc) (l : Link) (unsent : List UInt8) : Prop :=
  match pc with
  | .sending site call => unsent = if site.link = l then call.unsent order else []
  | .exited => True
  | _ => unsent = []

def LinkInv (order : ByteOrder) (s : RelayState) (l : Link) : Prop :=
  ∃ taken unsent, Flow order (s.sent l) (s.got l) taken (s.inflight l) unsent ∧
    (s.pc l.target).Took order l taken ∧ (s.pc l.source).Unsent order l unsent

/-- The links while a party is between two calls. -/
def Settled (order : ByteOrder) (s : RelayState) (p : Party) : Prop :=
  ∀ l, ∃ taken unsent, Flow order (s.sent l) (s.got l) taken (s.inflight l) unsent ∧
    (if l.target = p then taken = [] else (s.pc l.target).Took order l taken) ∧
    (if l.source = p then unsent = [] else (s.pc l.source).Unsent order l unsent)

/-- A point of a party's program at which no byte of a call has been moved. -/
def Pc.Starts (order : ByteOrder) (p : Party) (pc : Pc) : Prop :=
  (∀ l, pc.Took order l []) ∧
    match pc with
    | .sending site call => site.link.source = p ∧ call = { data := call.data }
    | _ => True

theorem starts_send {p : Party} {site : SendSite} (h : site.link.source = p) (m : Frame) :
    (send site m).Starts order p := ⟨fun _ => rfl, h, rfl⟩

theorem starts_recv (p : Party) (bufs : Buffers) (site : RecvSite) :
    (recv bufs site).Starts order p := by
  refine ⟨fun l => ?_, trivial⟩
  rw [recv, Pc.Took]
  split
  · exact RecvCall.took_fresh order _
  · rfl

/-- A point of a program between two calls. -/
def Pc.Between : Pc → Prop
  | .sending _ _ | .receiving _ _ | .exited => False
  | _ => True

theorem Pc.Between.took {pc : Pc} (h : pc.Between) {l : Link} {taken : List UInt8} :
    pc.Took order l taken ↔ taken = [] := by
  cases pc <;> first | rfl | exact h.elim

theorem Pc.Between.unsent {pc : Pc} (h : pc.Between) {l : Link} {unsent : List UInt8} :
    pc.Unsent order l unsent ↔ unsent = [] := by
  cases pc <;> first | rfl | exact h.elim

theorem Pc.Between.starts {pc : Pc} (h : pc.Between) (p : Party) : pc.Starts order p := by
  refine ⟨fun l => h.took.mpr rfl, ?_⟩
  cases pc <;> trivial

/-- Moving on from between two calls to the start of the next one keeps every link in order. -/
theorem Settled.enter {s : RelayState} {p : Party} {pc : Pc} (h : Settled order s p)
    (hstart : pc.Starts order p) (l : Link) : LinkInv order (s.enter p pc) l := by
  obtain ⟨taken, unsent, hflow, htook, hunsent⟩ := h l
  have htarget : ((s.enter p pc).pc l.target).Took order l taken := by
    rw [RelayState.enter_pc]
    refine update_pc (P := fun c => c.Took order l taken) (fun hp => ?_) fun hp => ?_
    · rw [if_pos hp] at htook
      rw [htook]
      exact hstart.1 l
    · rwa [if_neg hp] at htook
  by_cases hp : l.source = p
  · rw [if_pos hp] at hunsent
    subst hunsent
    cases pc with
    | sending site call =>
      obtain ⟨-, hsource, hcall⟩ := hstart
      by_cases hl : site.link = l
      · refine ⟨taken, frame order call.data, ?_, htarget, ?_⟩
        · simp only [RelayState.enter, hl, Function.update_self]
          exact hflow.begin call.data
        · simp only [RelayState.enter, hp, Function.update_self, Pc.Unsent, if_pos hl]
          rw [hcall]
          exact (SendCall.unsent_fresh order _).symm
      · refine ⟨taken, [], ?_, htarget, ?_⟩
        · simpa only [RelayState.enter, Function.update_of_ne (Ne.symm hl)] using hflow
        · simp only [RelayState.enter, hp, Function.update_self, Pc.Unsent, if_neg hl]
    | exited => exact ⟨taken, [], hflow, htarget, by simp [RelayState.enter, hp, Pc.Unsent]⟩
    | _ => exact ⟨taken, [], hflow, htarget, by simp [RelayState.enter, hp, Pc.Unsent]⟩
  · rw [if_neg hp] at hunsent
    refine ⟨taken, unsent, ?_, htarget, ?_⟩
    · cases pc with
      | sending site call =>
        have hl : l ≠ site.link := fun hl => hp (hl ▸ hstart.2.1)
        simpa only [RelayState.enter, Function.update_of_ne hl] using hflow
      | _ => exact hflow
    · rwa [RelayState.enter_pc, Function.update_of_ne hp]

theorem Link.source_ne_target (l : Link) : l.source ≠ l.target := by
  cases l <;> decide

/-- A `write` or a `read` on one link leaves the others in order. -/
theorem LinkInv.advance {s : RelayState} {p : Party} {pc : Pc} {l l' : Link} {bytes : List UInt8}
    (h : LinkInv order s l') (hl : l' ≠ l)
    (htook : ∀ taken, (s.pc p).Took order l' taken → pc.Took order l' taken)
    (hunsent : ∀ unsent, (s.pc p).Unsent order l' unsent → pc.Unsent order l' unsent) :
    LinkInv order (s.advance p pc l bytes) l' := by
  obtain ⟨taken, unsent, hflow, ht, hu⟩ := h
  refine ⟨taken, unsent, ?_, ?_, ?_⟩
  · rw [RelayState.advance_inflight, Function.update_of_ne hl]
    exact hflow
  · rw [RelayState.advance_pc]
    exact update_pc (P := fun c => c.Took order l' taken) (fun hp => htook taken (hp ▸ ht))
      fun _ => ht
  · rw [RelayState.advance_pc]
    exact update_pc (P := fun c => c.Unsent order l' unsent) (fun hp => hunsent unsent (hp ▸ hu))
      fun _ => hu

end MutualEdge.Sgx
