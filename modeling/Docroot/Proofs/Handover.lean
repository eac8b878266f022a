import Mathlib.Data.List.Infix
import Mathlib.Tactic.Common
import Docroot.Channel

/-!
What goes through a body, whatever steps its two sides make and in whatever order. The items come
out as they were accepted, none is lost as long as there is a body, and four at most are on their
way. What a body says of itself, that it is at its end and how many bytes are left, agrees with what
is still received. A sender that waits for room is one that makes its step again.
-/

namespace Docroot.Channel

/-! ### Runs -/

def after (s : State) (steps : List Step) : State := steps.foldl (fun s x => (step s x).2) s

abbrev History := List (Step × Answer)

def history (s : State) (steps : List Step) : History := steps.zip (run s steps)

variable {s : State} {steps more : List Step}

@[simp] lemma after_nil (s : State) : after s [] = s := rfl

@[simp] lemma after_cons (s : State) (x : Step) (steps : List Step) :
    after s (x :: steps) = after (step s x).2 steps := rfl

@[simp] lemma after_append (s : State) (steps more : List Step) :
    after s (steps ++ more) = after (after s steps) more :=
  List.foldl_append

@[simp] lemma history_cons (s : State) (x : Step) (steps : List Step) :
    history s (x :: steps) = (x, (step s x).1) :: history (step s x).2 steps := rfl

lemma history_append (s : State) (steps more : List Step) :
    history s (steps ++ more) = history s steps ++ history (after s steps) more := by
  induction steps generalizing s with
  | nil => rfl
  | cons x steps ih => simp [ih]

lemma sender_step (s : State) (x : Step) :
    (step s x).2.sender = true ↔ s.sender = true ∧ x ≠ .close := by
  cases x <;> simp only [step, send, fail, offer, receive] <;> grind

lemma sender_after : (after s steps).sender = true ↔ s.sender = true ∧ .close ∉ steps := by
  induction steps generalizing s with
  | nil => simp
  | cons x steps ih =>
    rw [after_cons, ih, sender_step, List.mem_cons]
    grind

lemma sender_after_eq_false (hs : s.sender = false) : (after s steps).sender = false := by
  rw [← Bool.not_eq_true, sender_after, hs]
  simp

/-! ### Items -/

/-- The item that a step hands over. An empty chunk is no item. -/
def Step.item? : Step → Option Item
  | send data => if data.isEmpty then none else some (.chunk data)
  | fail cause => some (.failure cause)
  | _ => none

def Answer.item? : Answer → Option Item
  | item i => some i
  | _ => none

/-- The item that is taken from a step that was answered. -/
def taken (e : Step × Answer) : Option Item := if e.2 = .done then e.1.item? else none

/-- The items that are accepted, those taken while there is a body. A failure that is reported later
reaches nobody, though its step is done. -/
def accepted (h : History) : List Item := (h.takeWhile fun e => e.1 ≠ .drop).filterMap taken

def received (h : History) : List Item := h.filterMap fun e => e.2.item?

def Item.data : Item → Bytes
  | chunk data => data
  | failure _ => []

def dataLength (items : List Item) : Nat := (items.flatMap Item.data).length

@[simp] lemma received_nil : received [] = [] := rfl

@[simp] lemma accepted_nil : accepted [] = [] := rfl

lemma received_cons (e : Step × Answer) (h : History) :
    received (e :: h) = e.2.item?.toList ++ received h := by
  unfold received
  cases hi : e.2.item? <;> simp [hi]

lemma received_append (h h' : History) : received (h ++ h') = received h ++ received h' :=
  List.filterMap_append

lemma accepted_drop (a : Answer) (h : History) : accepted ((.drop, a) :: h) = [] := rfl

lemma accepted_cons {e : Step × Answer} (hd : e.1 ≠ .drop) (h : History) :
    accepted (e :: h) = (taken e).toList ++ accepted h := by
  unfold accepted
  rw [List.takeWhile_cons_of_pos (by simpa using hd)]
  cases ht : taken e <;> simp [ht]

lemma dataLength_append (items items' : List Item) :
    dataLength (items ++ items') = dataLength items + dataLength items' := by
  simp [dataLength]

namespace Stream

def items : Stream → List Item
  | empty => []
  | full none => []
  | full (some data) => [.chunk data]
  | queue items => items

/-- Whether a sender can put more into the body. -/
def fed : Stream → Bool
  | queue _ => true
  | _ => false

lemma sizeHint_of_fed {b : Stream} (h : b.fed = true) : b.sizeHint = (0, none) := by
  cases b with
  | queue items => rfl
  | empty => cases h
  | full data => cases h

lemma sizeHint_of_not_fed {b : Stream} (h : b.fed = false) :
    b.sizeHint = (dataLength b.items, some (dataLength b.items)) := by
  cases b with
  | queue items => cases h
  | empty => rfl
  | full data => cases data <;> simp [sizeHint, items, dataLength, Item.data]

lemma not_fed_of_atEnd {b : Stream} (h : b.atEnd = true) : b.fed = false ∧ b.items = [] := by
  cases b with
  | queue items => cases h
  | empty => exact ⟨rfl, rfl⟩
  | full data =>
    cases data with
    | none => exact ⟨rfl, rfl⟩
    | some data => cases h

end Stream

/-! ### Without a body, and without a sender -/

lemma step_no_body (hs : s.stream = none) (x : Step) :
    (step s x).2.stream = none ∧ (step s x).1.item? = none := by
  obtain ⟨stream, sender⟩ := s
  obtain rfl : stream = none := hs
  cases x <;> cases sender <;> simp only [step, send, fail, offer, receive] <;> grind [Answer.item?]

lemma received_no_body (hs : s.stream = none) : received (history s steps) = [] := by
  induction steps generalizing s with
  | nil => rfl
  | cons x steps ih =>
    obtain ⟨hnone, hitem⟩ := step_no_body hs x
    rw [history_cons, received_cons, hitem, ih hnone]
    rfl

lemma stream_after_no_body (hs : s.stream = none) : (after s steps).stream = none := by
  induction steps generalizing s with
  | nil => exact hs
  | cons x steps ih => exact ih (step_no_body hs x).1

lemma stream_after_drop (hd : .drop ∈ steps) : (after s steps).stream = none := by
  obtain ⟨front, back, rfl⟩ := List.append_of_mem hd
  rw [after_append, after_cons]
  exact stream_after_no_body rfl

lemma step_no_sender (hs : s.sender = false) {x : Step} {i : Item} (hi : x.item? = some i) :
    step s x = (.noSender, s) := by
  cases x with
  | send data => simp [step, send, hs]
  | fail cause => simp [step, fail, hs]
  | close => cases hi
  | drop => cases hi
  | receive => cases hi

lemma taken_no_sender (hs : s.sender = false) (x : Step) : taken (x, (step s x).1) = none := by
  unfold taken
  cases hi : x.item? with
  | none => simp
  | some i => simp [step_no_sender hs hi]

lemma accepted_no_sender (hs : s.sender = false) : accepted (history s steps) = [] := by
  induction steps generalizing s with
  | nil => rfl
  | cons x steps ih =>
    have hnext : (step s x).2.sender = false := @sender_after_eq_false s [x] hs
    by_cases hx : x = .drop
    · rw [hx, history_cons, accepted_drop]
    · rw [history_cons, accepted_cons hx, taken_no_sender hs, ih hnext]
      rfl

/-! ### Steps of a body -/

/-- The body that a state has. Only a queue has a sender. -/
structure State.Holds (s : State) (b : Stream) : Prop where
  stream : s.stream = some b
  fed : s.sender = true → b.fed = true

lemma State.Holds.sender_eq_false {b : Stream} (hs : s.Holds b) (hfed : b.fed = false) :
    s.sender = false := by
  cases hsender : s.sender with
  | false => rfl
  | true => exact absurd (hs.fed hsender) (by rw [hfed]; exact Bool.false_ne_true)

/-- What becomes of a body over a stretch of its history. -/
structure Passes (b : Stream) (h : History) (b' : Stream) : Prop where
  fed : b'.fed = b.fed
  balance : received h ++ b'.items = b.items ++ accepted h
  bounded : b.items.length ≤ bound → b'.items.length ≤ bound

lemma Passes.nil (b : Stream) : Passes b [] b := ⟨rfl, by simp, id⟩

/-- A step without a change: it neither hands an item over nor brings one. -/
lemma Passes.idle {e : Step × Answer} (hd : e.1 ≠ .drop) (hr : e.2.item? = none)
    (ht : taken e = none) (b : Stream) : Passes b [e] b where
  fed := rfl
  balance := by simp [received_cons, accepted_cons hd, hr, ht]
  bounded := id

lemma Passes.cons {b b₁ b' : Stream} {e : Step × Answer} {h : History} (hd : e.1 ≠ .drop)
    (p : Passes b [e] b₁) (p' : Passes b₁ h b') : Passes b (e :: h) b' where
  fed := p'.fed.trans p.fed
  balance := by
    have hp := p.balance
    rw [received_cons, accepted_cons hd, received_nil, accepted_nil, List.append_nil,
      List.append_nil] at hp
    rw [received_cons, accepted_cons hd, List.append_assoc, p'.balance, ← List.append_assoc, hp,
      List.append_assoc]
  bounded := fun hb => p'.bounded (p.bounded hb)

/-- An item that is handed over is accepted as long as there is room for it. -/
lemma step_queue {x : Step} {i : Item} (hi : x.item? = some i) (items : List Item) :
    step ⟨some (.queue items), true⟩ x =
      if items.length < bound then (.done, ⟨some (.queue (items ++ [i])), true⟩)
      else (.pending, ⟨some (.queue items), true⟩) := by
  cases x with
  | send data =>
    cases data with
    | nil => cases hi
    | cons c data =>
      obtain rfl : Item.chunk (c :: data) = i := Option.some.inj hi
      rfl
  | fail cause =>
    obtain rfl : Item.failure cause = i := Option.some.inj hi
    by_cases hroom : items.length < bound <;> simp [step, fail, offer, hroom]
  | close => cases hi
  | drop => cases hi
  | receive => cases hi

lemma exists_passes_of_item? {b : Stream} (hs : s.Holds b) {x : Step} {i : Item}
    (hi : x.item? = some i) :
    ∃ b', (step s x).2.Holds b' ∧ Passes b [(x, (step s x).1)] b' := by
  have hd : x ≠ .drop := by
    rintro rfl
    cases hi
  obtain ⟨stream, sender⟩ := s
  obtain ⟨rfl, hfed⟩ := hs
  cases sender with
  | false =>
    rw [step_no_sender rfl hi]
    exact ⟨b, ⟨rfl, hfed⟩, Passes.idle hd rfl rfl b⟩
  | true =>
    -- there is a sender, so the body is a queue
    cases b with
    | empty => cases hfed rfl
    | full data => cases hfed rfl
    | queue items =>
      rw [step_queue hi]
      split
      · next hroom =>
        have ht : taken (x, .done) = some i := hi
        refine ⟨.queue (items ++ [i]), ⟨rfl, fun _ => rfl⟩, rfl, ?_, fun _ => ?_⟩
        · rw [received_cons, accepted_cons hd, ht]
          simp [Answer.item?, Stream.items]
        · rw [Stream.items, List.length_append]
          exact hroom
      · exact ⟨.queue items, ⟨rfl, hfed⟩, Passes.idle hd rfl rfl _⟩

lemma receive_answer {b : Stream} (hs : s.Holds b) :
    (step s .receive).1 =
      match b.items with
      | i :: _ => .item i
      | [] => if s.sender then .pending else .finished := by
  obtain ⟨stream, sender⟩ := s
  obtain ⟨rfl, hfed⟩ := hs
  cases b with
  | empty =>
    cases sender with
    | false => rfl
    | true => cases hfed rfl
  | full data =>
    cases sender with
    | false => cases data <;> rfl
    | true => cases hfed rfl
  | queue items => cases items <;> rfl

lemma item?_receive {b : Stream} (hs : s.Holds b) :
    (step s .receive).1.item? = b.items.head? := by
  rw [receive_answer hs]
  cases b.items with
  | nil => cases s.sender <;> rfl
  | cons i items => rfl

lemma exists_holds_receive {b : Stream} (hs : s.Holds b) :
    ∃ b', (step s .receive).2.Holds b' ∧ b'.fed = b.fed ∧ b'.items = b.items.tail := by
  obtain ⟨stream, sender⟩ := s
  obtain ⟨rfl, hfed⟩ := hs
  cases b with
  | empty => exact ⟨.empty, ⟨rfl, hfed⟩, rfl, rfl⟩
  | full data => cases data <;> exact ⟨.full none, ⟨rfl, hfed⟩, rfl, rfl⟩
  | queue items => cases items <;> exact ⟨.queue _, ⟨rfl, hfed⟩, rfl, rfl⟩

lemma exists_passes_receive {b : Stream} (hs : s.Holds b) :
    ∃ b', (step s .receive).2.Holds b' ∧ Passes b [(.receive, (step s .receive).1)] b' := by
  obtain ⟨b', hs', hfed, hitems⟩ := exists_holds_receive hs
  have hnone : taken (.receive, (step s .receive).1) = none := ite_self none
  refine ⟨b', hs', hfed, ?_, fun hb => ?_⟩
  · rw [received_cons, accepted_cons Step.noConfusion, hnone, item?_receive hs, hitems]
    cases b.items <;> simp
  · rw [hitems, List.length_tail]
    omega

/-- **One step** of a body that is not dropped. -/
lemma exists_passes_step {b : Stream} (hs : s.Holds b) {x : Step} (hd : x ≠ .drop) :
    ∃ b', (step s x).2.Holds b' ∧ Passes b [(x, (step s x).1)] b' := by
  cases x with
  | send data =>
    cases data with
    | nil =>
      cases hsender : s.sender <;>
        · simp only [step, send, hsender]
          exact ⟨b, hs, Passes.idle hd rfl rfl b⟩
    | cons c data => exact exists_passes_of_item? hs rfl
  | fail cause => exact exists_passes_of_item? hs rfl
  | close => exact ⟨b, ⟨hs.stream, fun h => Bool.noConfusion h⟩, Passes.idle hd rfl rfl b⟩
  | drop => exact absurd rfl hd
  | receive => exact exists_passes_receive hs

/-- **A run** of a body, up to where it is dropped. -/
theorem exists_passes {b : Stream} (hs : s.Holds b) (steps : List Step) :
    ∃ b', Passes b (history s steps) b' ∧ (.drop ∉ steps → (after s steps).Holds b') := by
  induction steps generalizing s b with
  | nil => exact ⟨b, Passes.nil b, fun _ => hs⟩
  | cons x steps ih =>
    by_cases hx : x = .drop
    · subst hx
      have hreceived : received (history s (.drop :: steps)) = [] := by
        rw [history_cons, received_cons, received_no_body rfl]
        rfl
      refine ⟨b, ⟨rfl, ?_, id⟩, fun hd => absurd List.mem_cons_self hd⟩
      rw [hreceived, history_cons, accepted_drop, List.nil_append, List.append_nil]
    · obtain ⟨b₁, hs₁, p⟩ := exists_passes_step hs hx
      obtain ⟨b', p', hlast⟩ := ih hs₁
      exact ⟨b', p.cons hx p', fun hd => hlast fun h => hd (List.mem_cons_of_mem x h)⟩

/-! ### The end of a body -/

lemma finished_iff {b : Stream} (hs : s.Holds b) :
    (step s .receive).1 = .finished ↔ b.items = [] ∧ s.sender = false := by
  rw [receive_answer hs]
  cases b.items with
  | nil => cases s.sender <;> simp
  | cons i items => simp

lemma receive_after_drop (hd : .drop ∈ steps) : (step (after s steps) .receive).1 = .noBody := by
  have hgone : (after s steps).stream = none := stream_after_drop hd
  simp [step, receive, hgone]

lemma not_drop_of_finished (hend : (step (after s steps) .receive).1 = .finished) :
    .drop ∉ steps := by
  intro hd
  rw [receive_after_drop hd] at hend
  cases hend

lemma finished_after {b : Stream} (hs : s.Holds b) (hend : (step s .receive).1 = .finished)
    (more : List Step) :
    (step (after s more) .receive).1 = if .drop ∈ more then .noBody else .finished := by
  split
  · next hd => exact receive_after_drop hd
  · next hd =>
    obtain ⟨hempty, hsender⟩ := (finished_iff hs).1 hend
    obtain ⟨b', p, hlast⟩ := exists_passes hs more
    have hbalance := p.balance
    rw [hempty, accepted_no_sender hsender, List.append_nil, List.append_eq_nil_iff] at hbalance
    exact (finished_iff (hlast hd)).2 ⟨hbalance.2, sender_after_eq_false hsender⟩

/-- To receive `n` times is to receive the first `n` items. -/
lemma received_replicate {b : Stream} (hs : s.Holds b) (n : Nat) :
    received (history s (List.replicate n .receive)) = b.items.take n := by
  induction n generalizing s b with
  | zero => rfl
  | succ n ih =>
    obtain ⟨b', hs', -, hitems⟩ := exists_holds_receive hs
    rw [List.replicate_succ, history_cons, received_cons, item?_receive hs, ih hs', hitems]
    cases b.items <;> simp

/-! ### Bodies as they are made -/

/-- The ways in which a body is made: without content, with all of it, or as a queue that a sender
fills. -/
inductive Origin
  | empty
  | full (data : Bytes)
  | channel
deriving DecidableEq

namespace Origin

def stream : Origin → Stream
  | empty => .empty
  | full data => .full (some data)
  | channel => .queue []

def items (o : Origin) : List Item := o.stream.items

def state (o : Origin) (steps : List Step) : State := after (ofStream o.stream) steps

def past (o : Origin) (steps : List Step) : History := history (ofStream o.stream) steps

def answer (o : Origin) (steps : List Step) (x : Step) : Answer := (step (o.state steps) x).1

variable (o : Origin)

lemma holds_start : (ofStream o.stream).Holds o.stream where
  stream := rfl
  fed := fun h => by
    cases o with
    | channel => rfl
    | empty => cases h
    | full data => cases h

lemma length_items_le : o.items.length ≤ bound := by
  cases o <;> simp [items, stream, Stream.items, bound]

lemma state_append (steps more : List Step) :
    o.state (steps ++ more) = after (o.state steps) more :=
  after_append _ steps more

lemma past_append (steps more : List Step) :
    o.past (steps ++ more) = o.past steps ++ history (o.state steps) more :=
  history_append _ steps more

lemma exists_left (steps : List Step) :
    ∃ b, received (o.past steps) ++ b.items = o.items ++ accepted (o.past steps) ∧
      b.items.length ≤ 4 ∧ b.fed = o.stream.fed ∧
      (.drop ∉ steps → (o.state steps).Holds b) := by
  obtain ⟨b, p, hlast⟩ := exists_passes o.holds_start steps
  exact ⟨b, p.balance, p.bounded o.length_items_le, p.fed, hlast⟩

lemma not_drop_of_stream {b : Stream} (hb : (o.state steps).stream = some b) : .drop ∉ steps := by
  intro hd
  rw [state, stream_after_drop hd] at hb
  cases hb

lemma holds_of_stream {b : Stream} (hb : (o.state steps).stream = some b) :
    (o.state steps).Holds b := by
  obtain ⟨b', -, -, -, hlast⟩ := o.exists_left steps
  have hs := hlast (o.not_drop_of_stream hb)
  obtain rfl : b' = b := Option.some.inj (hs.stream.symm.trans hb)
  exact hs

/-- A queue is told to have ended when its sender is closed and it is empty. -/
lemma finished_channel_iff (steps : List Step) :
    channel.answer steps .receive = .finished ↔ .close ∈ steps ∧ .drop ∉ steps ∧
      received (channel.past steps) = accepted (channel.past steps) := by
  by_cases hd : .drop ∈ steps
  · exact iff_of_false (fun hend => not_drop_of_finished hend hd) fun h => h.2.1 hd
  · obtain ⟨b, hbalance, -, -, hlast⟩ := channel.exists_left steps
    have hs := hlast hd
    have hempty : b.items = [] ↔
        received (channel.past steps) = accepted (channel.past steps) := by
      have hnil : channel.items = [] := rfl
      rw [hnil, List.nil_append] at hbalance
      rw [← hbalance, List.self_eq_append_right]
    have hclosed : (channel.state steps).sender = false ↔ .close ∈ steps := by
      rw [← Bool.not_eq_true, state, sender_after]
      simp [ofStream, stream]
    rw [answer, finished_iff hs, hempty, hclosed]
    tauto

/-- The answer to a chunk that is sent, told from what was accepted and received before. -/
lemma send_channel_eq (hc : .close ∉ steps) {data : Bytes} (hdata : data ≠ []) :
    channel.answer steps (.send data) =
      if .drop ∈ steps then .error .receiverGone
      else if (accepted (channel.past steps)).length <
        (received (channel.past steps)).length + 4 then .done
      else .pending := by
  have hsender : (channel.state steps).sender = true := sender_after.2 ⟨rfl, hc⟩
  have hitem : (Step.send data).item? = some (.chunk data) := by
    simp [Step.item?, hdata]
  by_cases hd : .drop ∈ steps
  · have hgone : (channel.state steps).stream = none := stream_after_drop hd
    simp [answer, step, send, offer, hsender, hdata, hgone, hd]
  -- what was accepted and not yet received is what the queue holds
  · obtain ⟨b, hbalance, -, hfed, hlast⟩ := channel.exists_left steps
    obtain ⟨hstream, -⟩ := hlast hd
    have hstate : channel.state steps = ⟨some b, true⟩ := by
      rw [← hstream, ← hsender]
    cases b with
    | empty => cases hfed
    | full data => cases hfed
    | queue items =>
      have hlength : (received (channel.past steps)).length + items.length =
          (accepted (channel.past steps)).length := by
        simpa [Origin.items, stream, Stream.items] using congrArg List.length hbalance
      have hroom : items.length < bound ↔
          (accepted (channel.past steps)).length < (received (channel.past steps)).length + 4 := by
        unfold bound
        omega
      rw [answer, hstate, step_queue hitem, if_neg hd]
      simp only [hroom]
      split <;> rfl

lemma finished_append (hend : o.answer steps .receive = .finished) (more : List Step) :
    o.answer (steps ++ more) .receive = if .drop ∈ more then .noBody else .finished := by
  obtain ⟨b, -, -, -, hlast⟩ := o.exists_left steps
  rw [answer, state_append]
  exact finished_after (hlast (not_drop_of_finished hend)) hend more

lemma finished_of_close (hd : .drop ∉ steps) :
    o.answer (steps ++ .close :: List.replicate 4 .receive) .receive = .finished := by
  obtain ⟨b, -, hfour, -, hlast⟩ := o.exists_left steps
  have hclosed : (step (o.state steps) .close).2.Holds b :=
    ⟨(hlast hd).stream, fun h => Bool.noConfusion h⟩
  obtain ⟨b', p, hlast'⟩ := exists_passes hclosed (List.replicate 4 .receive)
  have hbalance := p.balance
  rw [accepted_no_sender rfl, received_replicate hclosed, List.take_of_length_le hfour,
    List.append_cancel_left_eq] at hbalance
  rw [answer, state_append, after_cons]
  exact (finished_iff (hlast' (by decide))).2 ⟨hbalance, sender_after_eq_false rfl⟩

lemma finished_of_atEnd {b : Stream} (hb : (o.state steps).stream = some b)
    (hat : b.atEnd = true) : o.answer steps .receive = .finished := by
  have hs := o.holds_of_stream hb
  obtain ⟨hfed, hempty⟩ := Stream.not_fed_of_atEnd hat
  exact (finished_iff hs).2 ⟨hempty, hs.sender_eq_false hfed⟩

lemma size_of_not_fed {b : Stream} (hb : (o.state steps).stream = some b) (hfed : b.fed = false)
    (more : List Step) :
    dataLength (received (history (o.state steps) more)) ≤ dataLength b.items ∧
      (o.answer (steps ++ more) .receive = .finished →
        dataLength (received (history (o.state steps) more)) = dataLength b.items) := by
  have hs := o.holds_of_stream hb
  obtain ⟨b', p, hlast⟩ := exists_passes hs more
  have hbalance := p.balance
  rw [accepted_no_sender (hs.sender_eq_false hfed), List.append_nil] at hbalance
  rw [← hbalance, dataLength_append]
  refine ⟨Nat.le_add_right _ _, fun hend => ?_⟩
  rw [answer, state_append] at hend
  have hs' := hlast (not_drop_of_finished hend)
  rw [((finished_iff hs').1 hend).1]
  rfl

end Origin

/-- What is so for a body after a row of steps of its two sides. -/
structure Orderly (o : Origin) (steps : List Step) : Prop where
  /-- What has come out are the first of the items that went in, in their order. -/
  in_order : received (o.past steps) <+: o.items ++ accepted (o.past steps)
  /-- At most four items have gone in and not come out. -/
  few_unreceived :
    (o.items ++ accepted (o.past steps)).length ≤ (received (o.past steps)).length + 4
  /-- As long as the body is not dropped nothing is lost: four receives later all has come out. -/
  nothing_lost : .drop ∉ steps →
    received (o.past (steps ++ List.replicate 4 .receive)) = o.items ++ accepted (o.past steps)
  /-- A queue is at its end just when its sender is closed and all that was accepted is received. -/
  end_iff : o = .channel → (o.answer steps .receive = .finished ↔
    .close ∈ steps ∧ .drop ∉ steps ∧ received (o.past steps) = accepted (o.past steps))
  /-- What has reported its end reports it from then on. -/
  end_stays : o.answer steps .receive = .finished → ∀ more,
    o.answer (steps ++ more) .receive = if .drop ∈ more then .noBody else .finished
  /-- Once its sender is closed, a body that is not dropped is at its end four receives later. -/
  drains : .drop ∉ steps →
    o.answer (steps ++ .close :: List.replicate 4 .receive) .receive = .finished
  /-- A chunk that is not empty fails, because the receiver is gone, just when the body is dropped;
  it waits just when four items are not yet received. -/
  send_answer : o = .channel → .close ∉ steps → ∀ data, data ≠ [] →
    o.answer steps (.send data) =
      if .drop ∈ steps then .error .receiverGone
      else if (accepted (o.past steps)).length < (received (o.past steps)).length + 4 then .done
      else .pending
  /-- Where a body says of itself that it is at its end, it reports nothing but its end. -/
  at_end : ∀ b, (o.state steps).stream = some b → b.atEnd = true → ∀ more,
    o.answer (steps ++ more) .receive = if .drop ∈ more then .noBody else .finished
  /-- What is received from now on is never more than the greatest number of bytes that the body
  states, and not less than the least number once all is received. -/
  size : ∀ b, (o.state steps).stream = some b → ∀ more,
    (∀ n, b.sizeHint.2 = some n → dataLength (received (history (o.state steps) more)) ≤ n) ∧
    (o.answer (steps ++ more) .receive = .finished →
      b.sizeHint.1 ≤ dataLength (received (history (o.state steps) more)))

/-- **The traffic through a body is orderly**, however the body is made and whatever its two sides
do. -/
theorem orderly (o : Origin) (steps : List Step) : Orderly o steps where
  in_order := by
    obtain ⟨b, hbalance, -⟩ := o.exists_left steps
    exact ⟨b.items, hbalance⟩
  few_unreceived := by
    obtain ⟨b, hbalance, hfour, -⟩ := o.exists_left steps
    rw [← hbalance, List.length_append]
    exact Nat.add_le_add_left hfour _
  nothing_lost := fun hd => by
    obtain ⟨b, hbalance, hfour, -, hlast⟩ := o.exists_left steps
    rw [o.past_append, received_append, received_replicate (hlast hd), List.take_of_length_le hfour,
      hbalance]
  end_iff := by
    rintro rfl
    exact Origin.finished_channel_iff steps
  end_stays := fun hend more => o.finished_append hend more
  drains := o.finished_of_close
  send_answer := by
    rintro rfl hc data hdata
    exact Origin.send_channel_eq hc hdata
  at_end := fun b hb hat more => o.finished_append (o.finished_of_atEnd hb hat) more
  size := fun b hb more => by
    cases hfed : b.fed with
    | true =>
      rw [Stream.sizeHint_of_fed hfed]
      refine ⟨fun n hn => ?_, fun _ => Nat.zero_le _⟩
      cases hn
    | false =>
      obtain ⟨hle, heq⟩ := o.size_of_not_fed hb hfed more
      rw [Stream.sizeHint_of_not_fed hfed]
      exact ⟨fun n hn => Option.some.inj hn ▸ hle, fun hend => (heq hend).ge⟩

/-- A queue whose sender is closed before the last item is received and that is dropped later, a
chunk that is sent to a body that is gone, and the whole of a body in memory. -/
theorem orderly_sample :
    let steps := [.send [97], .fail .notFound, .receive, .close, .receive]
    (Origin.channel.answer steps .receive = .finished ∧
      Origin.channel.answer (steps ++ [.send [98], .drop]) .receive = .noBody) ∧
      Origin.channel.answer [.send [97], .drop] (.send [98]) = .error .receiverGone ∧
      2 ≤ dataLength (received (history ((Origin.full [104, 105]).state []) [.receive])) :=
  ⟨⟨by decide, (orderly .channel _).end_stays (by decide) _⟩,
    (orderly .channel _).send_answer rfl (by decide) _ (by decide),
    ((orderly (.full [104, 105]) []).size _ rfl [.receive]).2 (by decide)⟩

end Docroot.Channel
