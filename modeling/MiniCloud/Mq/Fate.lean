import Mathlib.Data.List.TakeWhile
import MiniCloud.Mq.Groups

/-!
# The fate of a message

With one consumer group on a topic, a message is at any time in one place: in the
queue behind the cursor, in the hands of one subscriber, acked, or dead.  The number
of its retries travels in its headers as a decimal text; `itoa` and the loop that
reads it agree up to sixteen digits, so the headers say how often the message has
failed.
-/

namespace MiniCloud.Mq

/-! ## The retry counter -/

/-- The number that a text of digits stands for. -/
def digitsValue (digits : Bytes) : Nat :=
  digits.foldl (fun value c => value * 10 + (c.toNat - 48)) 0

theorem toNat_digit (n : Nat) : (UInt8.ofNat (48 + n % 10)).toNat = 48 + n % 10 := by
  rw [UInt8.toNat_ofNat']
  omega

theorem isDigit_digit (n : Nat) : isDigit (UInt8.ofNat (48 + n % 10)) = true := by
  simp only [isDigit, Bool.and_eq_true, decide_eq_true_eq, UInt8.le_iff_toNat_le, toNat_digit]
  constructor
  · exact Nat.le_add_right 48 _
  · change 48 + n % 10 ≤ 57
    omega

/-- With enough room, `itoa` writes the digits of its number. -/
theorem itoaLoop_value {i n : Nat} (fits : n < 10 ^ i) (buf : Bytes) :
    ∃ digits, itoaLoop i n buf = some (digits ++ buf) ∧ (∀ c ∈ digits, isDigit c = true) ∧
      digitsValue digits = n := by
  induction i generalizing n buf with
  | zero =>
      have zero : n = 0 := by omega
      refine ⟨[], ?_, by simp, by rw [zero]; rfl⟩
      rw [itoaLoop, if_pos zero]
      rfl
  | succ i ih =>
      by_cases zero : n = 0
      · refine ⟨[], ?_, by simp, by rw [zero]; rfl⟩
        rw [itoaLoop, if_pos zero]
        rfl
      · have smaller : n / 10 < 10 ^ i := by
          rw [Nat.pow_succ] at fits
          omega
        obtain ⟨digits, written, allDigits, value⟩ := ih smaller (UInt8.ofNat (48 + n % 10) :: buf)
        refine ⟨digits ++ [UInt8.ofNat (48 + n % 10)], ?_, ?_, ?_⟩
        · rw [itoaLoop, if_neg zero, List.append_assoc]
          exact written
        · exact Library.each_concat allDigits (isDigit_digit n)
        · unfold digitsValue at value ⊢
          rw [List.foldl_append, value, List.foldl_cons, List.foldl_nil, toNat_digit]
          omega

theorem parseRetries_digits {digits : Bytes} (allDigits : ∀ c ∈ digits, isDigit c = true) :
    parseRetries digits = Int64.ofNat (digitsValue digits) := by
  unfold parseRetries digitsValue
  rw [List.takeWhile_eq_self_iff.mpr allDigits]
  refine List.foldl_hom Int64.ofNat ?_
  intro value c
  rw [Int64.ofNat_add, Int64.ofNat_mul]
  rfl

theorem toInt_ofNat_small {n : Nat} (small : n < 10 ^ 16) : (Int64.ofNat n).toInt = n :=
  Int64.toInt_ofNat_of_lt (Nat.lt_trans small (by decide))

/-- Up to sixteen digits the counter is read as it was written. -/
theorem itoa_read {n : Nat} (positive : 0 < n) (small : n < 10 ^ 16) :
    ∃ v, itoa (Int64.ofNat n) = some v ∧ parseRetries v = Int64.ofNat n := by
  have value := toInt_ofNat_small small
  have nonzero : Int64.ofNat n ≠ 0 := by
    intro zero
    rw [zero] at value
    have isZero : (0 : Int64).toInt = 0 := rfl
    omega
  obtain ⟨digits, written, allDigits, isN⟩ := itoaLoop_value small []
  rw [List.append_nil] at written
  refine ⟨digits, ?_, by rw [parseRetries_digits allDigits, isN]⟩
  rw [itoa, if_neg nonzero, value]
  exact written

/-! ## The fate of a message -/

/-- The handler was called with the message. -/
def Event.callsFor (m : Nat) : Event → Bool
  | .called _ mv _ => mv = m
  | _ => false

def Event.resultOf (m : Nat) : Event → Option Bool
  | .returned mv err => if mv = m then some err else none
  | _ => none

/-- The results of the deliveries of a message, in their order; `true` is an error. -/
def results (events : List Event) (m : Nat) : List Bool := events.filterMap (Event.resultOf m)

/-- How often the handler was called with a message. -/
def deliveries (events : List Event) (m : Nat) : Nat := events.countP (Event.callsFor m)

namespace Stage

/-- The subscriber has taken the message and neither acked it nor given it away. -/
def holds (m : Nat) : Stage → Bool
  | .taken _ mv | .handling _ mv | .succeeded mv | .failed mv | .clearing mv _ | .writing mv _
  | .requeueing mv | .burying mv => mv = m
  | _ => false

def handles (m : Nat) : Stage → Bool
  | .handling _ mv => mv = m
  | _ => false

end Stage

/-- The message has failed as often as its headers say, and may be delivered again. -/
def Tried (limit : Nat) (retries : Int64) (results : List Bool) : Prop :=
  ∃ r ≤ limit, retries = Int64.ofNat r ∧ results = List.replicate r true

/-- The last delivery succeeded, after failures within the limit. -/
def Acked (limit : Nat) (results : List Bool) : Prop :=
  ∃ r ≤ limit, results = List.replicate r true ++ [false]

/-- All deliveries failed, one more than the limit. -/
def Exhausted (limit : Nat) (results : List Bool) : Prop :=
  results = List.replicate (limit + 1) true

/-- What a stage means for the message that it holds. -/
def Stage.Tells (limit : Nat) (retries : Int64) (results : List Bool) : Stage → Prop
  | .taken _ _ | .handling _ _ | .requeueing _ => Tried limit retries results
  | .succeeded _ => Acked limit results
  | .failed _ =>
      ∃ r ≤ limit, retries = Int64.ofNat r ∧ results = List.replicate (r + 1) true
  | .clearing _ n | .writing _ n =>
      ∃ r < limit, n = Int64.ofNat r ∧ results = List.replicate (r + 1) true
  | .burying _ => Exhausted limit results
  | _ => True

/-- The part of the queue that is still to be delivered. -/
def Lane.ahead (lane : Lane) : List Nat := lane.queue.drop lane.cursor

/-- A message is in one place, and its headers and the results of its deliveries are those
of that place. -/
structure Fate (limit : Nat) (s : Solo) (m : Nat) : Prop where
  place : s.lane.ahead.count m + s.workers.countP (Stage.holds m) + s.events.count (.acked m) +
    s.events.count (.dead m) = (decide (m < s.lane.messages.length)).toNat
  waits : m ∈ s.lane.ahead → Tried limit (retriesOf (s.lane.headers m)) (results s.events m)
  held : ∀ stage ∈ s.workers, stage.holds m = true →
    stage.Tells limit (retriesOf (s.lane.headers m)) (results s.events m)
  acked : .acked m ∈ s.events → Acked limit (results s.events m)
  dead : .dead m ∈ s.events → Exhausted limit (results s.events m)
  calls : deliveries s.events m =
    (results s.events m).length + s.workers.countP (Stage.handles m)
  unborn : s.lane.messages.length ≤ m → results s.events m = []

section Apart

variable {maxRetries : Int64} {err : Bool} {lane lane' : Lane} {stage after : Stage} {m : Nat}

theorem handles_of_not_holds (notHeld : stage.holds m = false) : stage.handles m = false := by
  cases stage with
  | handling pos mv => exact notHeld
  | _ => rfl

theorem headers_setHeaders_ne (q : Queue) {mv : Nat} (headers : Headers) (different : mv ≠ m) :
    (q.setHeaders mv headers).headers m = q.headers m := by
  unfold Queue.headers Queue.setHeaders
  simp only [List.getElem?_modify, if_neg different]
  cases q.messages[m]? with
  | none => rfl
  | some message => rfl

theorem headers_setHeaders_self {q : Queue} (inside : m < q.messages.length) (headers : Headers) :
    (q.setHeaders m headers).headers m = headers := by
  unfold Queue.headers Queue.setHeaders
  simp only [List.getElem?_modify, if_true]
  rw [List.getElem?_eq_getElem inside]
  rfl

theorem length_setHeaders (q : Queue) (mv : Nat) (headers : Headers) :
    (q.setHeaders mv headers).messages.length = q.messages.length :=
  List.length_modify _ _ _

/-- The step is about another message. -/
structure Apart (m : Nat) (lane lane' : Lane) (events : List Event) : Prop where
  ahead : lane'.ahead.count m = lane.ahead.count m
  headers : lane'.headers m = lane.headers m
  messages : lane'.messages.length = lane.messages.length
  acked : events.count (.acked m) = 0
  dead : events.count (.dead m) = 0
  results : results events m = []
  calls : deliveries events m = 0

theorem apart_nothing (m : Nat) (lane : Lane) : Apart m lane lane [] :=
  ⟨rfl, rfl, rfl, rfl, rfl, rfl, rfl⟩

theorem Delivers.apart (delivers : Delivers maxRetries lane err stage lane' after)
    (within : lane.cursor ≤ lane.queue.length) (notBefore : stage.holds m = false)
    (notAfter : after.holds m = false) : Apart m lane lane' (lane.events err stage) := by
  cases delivers with
  | @take _ mv found =>
      have different : mv ≠ m := by simpa [Stage.holds] using notAfter
      obtain ⟨inside, isMv⟩ := List.getElem?_eq_some_iff.mp found
      refine ⟨?_, rfl, rfl, rfl, rfl, rfl, rfl⟩
      unfold Lane.ahead
      rw [List.drop_eq_getElem_cons inside, isMv, List.count_cons_of_ne different]
  | call pos mv =>
      have different : mv ≠ m := by simpa [Stage.holds] using notBefore
      refine ⟨rfl, rfl, rfl, rfl, rfl, rfl, ?_⟩
      simp [deliveries, Lane.events, Event.callsFor, different]
  | succeed pos mv =>
      have different : mv ≠ m := by simpa [Stage.holds] using notBefore
      refine ⟨rfl, rfl, rfl, rfl, rfl, ?_, rfl⟩
      simp [results, Lane.events, Event.resultOf, different]
  | fail pos mv =>
      have different : mv ≠ m := by simpa [Stage.holds] using notBefore
      refine ⟨rfl, rfl, rfl, rfl, rfl, ?_, rfl⟩
      simp [results, Lane.events, Event.resultOf, different]
  | ack mv =>
      have different : mv ≠ m := by simpa [Stage.holds] using notBefore
      refine ⟨rfl, rfl, rfl, ?_, rfl, rfl, rfl⟩
      simp [Lane.events, different]
  | clear mv retries =>
      have different : mv ≠ m := by simpa [Stage.holds] using notBefore
      exact ⟨rfl, headers_setHeaders_ne _ _ different, length_setHeaders _ _ _, rfl, rfl, rfl, rfl⟩
  | @write _ mv _ _ text =>
      have different : mv ≠ m := by simpa [Stage.holds] using notBefore
      exact ⟨rfl, headers_setHeaders_ne _ _ different, length_setHeaders _ _ _, rfl, rfl, rfl, rfl⟩
  | requeue mv =>
      have different : mv ≠ m := by simpa [Stage.holds] using notBefore
      refine ⟨?_, rfl, rfl, rfl, rfl, rfl, rfl⟩
      unfold Lane.ahead Queue.requeue
      rw [List.drop_append_of_le_length within, List.count_append,
        List.count_singleton, if_neg (by simpa using different)]
      rfl
  | bury mv =>
      have different : mv ≠ m := by simpa [Stage.holds] using notBefore
      refine ⟨rfl, rfl, rfl, rfl, ?_, rfl, rfl⟩
      simp [Lane.events, different]
  | _ => exact apart_nothing m lane

end Apart

section Delivered

variable {limit : Nat} {s : Solo} {m i : Nat} {err : Bool} {stage after : Stage} {lane : Lane}

theorem results_append (events added : List Event) (m : Nat) :
    results (events ++ added) m = results events m ++ results added m :=
  List.filterMap_append

theorem deliveries_append (events added : List Event) (m : Nat) :
    deliveries (events ++ added) m = deliveries events m + deliveries added m :=
  List.countP_append

theorem countP_workers (p : Stage → Bool) (current : s.workers[i]? = some stage) (after : Stage) :
    (s.workers.set i after).countP p + (p stage).toNat = s.workers.countP p + (p after).toNat :=
  Library.countP_set_toNat p current

/-- A step that is about another message. -/
theorem Fate.apart (fate : Fate limit s m) (current : s.workers[i]? = some stage)
    (notBefore : stage.holds m = false) (notAfter : after.holds m = false)
    (apart : Apart m s.lane lane (s.lane.events err stage)) :
    Fate limit (s.delivered i err stage lane after) m := by
  have sameResults : results (s.events ++ s.lane.events err stage) m = results s.events m := by
    rw [results_append, apart.results, List.append_nil]
  have holders := countP_workers (Stage.holds m) current after
  have handlers := countP_workers (Stage.handles m) current after
  rw [notBefore, notAfter] at holders
  rw [handles_of_not_holds notBefore, handles_of_not_holds notAfter] at handlers
  constructor
  · have place := fate.place
    simp only [Solo.delivered, List.count_append, apart.ahead, apart.acked, apart.dead,
      apart.messages]
    omega
  · intro ahead
    have before : m ∈ s.lane.ahead := by
      rw [← List.count_pos_iff, ← apart.ahead]
      exact List.count_pos_iff.mpr ahead
    simp only [Solo.delivered, sameResults, apart.headers]
    exact fate.waits before
  · intro other member
    simp only [Solo.delivered, sameResults, apart.headers]
    rcases List.mem_or_eq_of_mem_set member with earlier | isNew
    · exact fate.held other earlier
    · intro holds
      rw [isNew, notAfter] at holds
      cases holds
  · intro member
    simp only [Solo.delivered, sameResults]
    rcases List.mem_append.mp member with earlier | isNew
    · exact fate.acked earlier
    · exact absurd isNew (List.count_eq_zero.mp apart.acked)
  · intro member
    simp only [Solo.delivered, sameResults]
    rcases List.mem_append.mp member with earlier | isNew
    · exact fate.dead earlier
    · exact absurd isNew (List.count_eq_zero.mp apart.dead)
  · have calls := fate.calls
    simp only [Solo.delivered, sameResults, deliveries_append, apart.calls]
    omega
  · simp only [Solo.delivered, sameResults, apart.messages]
    exact fate.unborn

/-- A step about the message, which is at the cursor or in the hands of the subscriber
before it, and nowhere else. -/
theorem Fate.touched (fate : Fate limit s m) (current : s.workers[i]? = some stage)
    (sole : s.lane.ahead.count m + (stage.holds m).toNat = 1)
    (balance : lane.ahead.count m + (after.holds m).toNat +
      (s.lane.events err stage).count (.acked m) + (s.lane.events err stage).count (.dead m) = 1)
    (messages : lane.messages.length = s.lane.messages.length)
    (waits : m ∈ lane.ahead → Tried limit (retriesOf (lane.headers m))
      (results s.events m ++ results (s.lane.events err stage) m))
    (tells : after.holds m = true → after.Tells limit (retriesOf (lane.headers m))
      (results s.events m ++ results (s.lane.events err stage) m))
    (acked : .acked m ∈ s.lane.events err stage →
      Acked limit (results s.events m ++ results (s.lane.events err stage) m))
    (dead : .dead m ∈ s.lane.events err stage →
      Exhausted limit (results s.events m ++ results (s.lane.events err stage) m))
    (calls : deliveries (s.lane.events err stage) m + (stage.handles m).toNat =
      (results (s.lane.events err stage) m).length + (after.handles m).toNat) :
    Fate limit (s.delivered i err stage lane after) m := by
  have holders := countP_workers (Stage.holds m) current after
  have free := countP_workers (Stage.holds m) current .idle
  have handlers := countP_workers (Stage.handles m) current after
  have idleFree : ((Stage.idle).holds m).toNat = 0 := rfl
  have place := fate.place
  have atMost := Bool.toNat_le (decide (m < s.lane.messages.length))
  have noneFree : (s.workers.set i .idle).countP (Stage.holds m) = 0 := by omega
  have notAcked : s.events.count (.acked m) = 0 := by omega
  have notDead : s.events.count (.dead m) = 0 := by omega
  constructor
  · simp only [Solo.delivered, List.count_append, messages]
    omega
  · intro ahead
    simp only [Solo.delivered, results_append]
    exact waits ahead
  · intro other member holds
    simp only [Solo.delivered, results_append]
    obtain ⟨j, found⟩ := List.mem_iff_getElem?.mp member
    rcases Library.getElem?_set_cases found with ⟨_, rfl⟩ | ⟨different, earlier⟩
    · exact tells holds
    · have stays : other ∈ s.workers.set i .idle := Library.mem_set_other different earlier
      exact absurd holds (List.countP_eq_zero.mp noneFree other stays)
  · intro member
    simp only [Solo.delivered, results_append]
    rcases List.mem_append.mp member with earlier | isNew
    · exact absurd earlier (List.count_eq_zero.mp notAcked)
    · exact acked isNew
  · intro member
    simp only [Solo.delivered, results_append]
    rcases List.mem_append.mp member with earlier | isNew
    · exact absurd earlier (List.count_eq_zero.mp notDead)
    · exact dead isNew
  · have before := fate.calls
    simp only [Solo.delivered, results_append, deliveries_append, List.length_append]
    omega
  · intro outside
    have inside : (decide (m < s.lane.messages.length)).toNat = 0 := by
      have beyond : ¬ m < s.lane.messages.length := by
        rw [← messages]
        exact Nat.not_lt.mpr outside
      rw [decide_eq_false beyond]
      rfl
    omega

/-- A message in the hands of a subscriber is not in the queue behind the cursor. -/
theorem Fate.sole (fate : Fate limit s m) (current : s.workers[i]? = some stage)
    (holds : stage.holds m = true) : s.lane.ahead.count m + (stage.holds m).toNat = 1 := by
  have place := fate.place
  have atMost := Bool.toNat_le (decide (m < s.lane.messages.length))
  have one : 0 < s.workers.countP (Stage.holds m) :=
    List.countP_pos_iff.mpr ⟨stage, List.mem_of_getElem? current, holds⟩
  have isOne : (stage.holds m).toNat = 1 := by rw [holds]; rfl
  omega

theorem Fate.notAhead (fate : Fate limit s m) (current : s.workers[i]? = some stage)
    (holds : stage.holds m = true) : s.lane.ahead.count m = 0 := by
  have sole := fate.sole current holds
  rw [holds] at sole
  change s.lane.ahead.count m + 1 = 1 at sole
  omega

theorem Fate.inside (fate : Fate limit s m) (current : s.workers[i]? = some stage)
    (holds : stage.holds m = true) : m < s.lane.messages.length := by
  have place := fate.place
  have one : 0 < s.workers.countP (Stage.holds m) :=
    List.countP_pos_iff.mpr ⟨stage, List.mem_of_getElem? current, holds⟩
  by_cases inside : m < s.lane.messages.length
  · exact inside
  · have none : (decide (m < s.lane.messages.length)).toNat = 0 := by
      rw [decide_eq_false inside]
      rfl
    omega

/-- The subscriber goes on with the message. -/
theorem Fate.stays (fate : Fate limit s m) (current : s.workers[i]? = some stage)
    (holds : stage.holds m = true) (ahead : lane.ahead = s.lane.ahead)
    (messages : lane.messages.length = s.lane.messages.length)
    (notAcked : (s.lane.events err stage).count (.acked m) = 0)
    (notDead : (s.lane.events err stage).count (.dead m) = 0)
    (holdsAfter : after.holds m = true)
    (tells : after.Tells limit (retriesOf (lane.headers m))
      (results s.events m ++ results (s.lane.events err stage) m))
    (calls : deliveries (s.lane.events err stage) m + (stage.handles m).toNat =
      (results (s.lane.events err stage) m).length + (after.handles m).toNat) :
    Fate limit (s.delivered i err stage lane after) m := by
  have notAhead := fate.notAhead current holds
  refine fate.touched current (fate.sole current holds) ?_ messages ?_ (fun _ => tells) ?_ ?_ calls
  · rw [ahead, notAhead, holdsAfter, notAcked, notDead]
    rfl
  · intro member
    rw [ahead] at member
    exact absurd member (List.count_eq_zero.mp notAhead)
  · intro member
    exact absurd member (List.count_eq_zero.mp notAcked)
  · intro member
    exact absurd member (List.count_eq_zero.mp notDead)

/-- The same for a step that leaves no event. -/
theorem Fate.goesOn (fate : Fate limit s m) (current : s.workers[i]? = some stage)
    (silent : s.lane.events err stage = []) (holds : stage.holds m = true)
    (ahead : lane.ahead = s.lane.ahead)
    (messages : lane.messages.length = s.lane.messages.length)
    (holdsAfter : after.holds m = true) (handles : after.handles m = stage.handles m)
    (tells : after.Tells limit (retriesOf (lane.headers m)) (results s.events m)) :
    Fate limit (s.delivered i err stage lane after) m := by
  refine fate.stays current holds ahead messages ?_ ?_ holdsAfter ?_ ?_
  · rw [silent]
    rfl
  · rw [silent]
    rfl
  · rw [silent, show results [] m = [] from rfl, List.append_nil]
    exact tells
  · rw [silent, handles]
    rfl

theorem le_ofNat_iff {r : Nat} (small : limit < 10 ^ 16) (within : r ≤ limit) :
    Int64.ofNat limit ≤ Int64.ofNat r ↔ limit = r := by
  rw [Int64.le_iff_toInt_le, toInt_ofNat_small small,
    toInt_ofNat_small (Nat.lt_of_le_of_lt within small)]
  omega

theorem retriesOf_insert (headers : Headers) (v : Bytes) :
    retriesOf (headers.insert "retries" v) = parseRetries v := by
  unfold retriesOf
  rw [AList.lookup_insert]

theorem replicate_snoc (r : Nat) : List.replicate r true ++ [true] = List.replicate (r + 1) true :=
  List.replicate_succ'.symm

/-- The message at the cursor is taken. -/
theorem fate_take (fate : Fate limit s m) (current : s.workers[i]? = some .idle)
    (found : s.lane.queue[s.lane.cursor]? = some m) :
    Fate limit (s.delivered i err .idle { s.lane with cursor := s.lane.cursor + 1 }
      (.taken s.lane.cursor m)) m := by
  obtain ⟨inside, isM⟩ := List.getElem?_eq_some_iff.mp found
  have splits : s.lane.ahead = m :: s.lane.queue.drop (s.lane.cursor + 1) := by
    rw [Lane.ahead, List.drop_eq_getElem_cons inside, isM]
  have counts : s.lane.ahead.count m = (s.lane.queue.drop (s.lane.cursor + 1)).count m + 1 := by
    rw [splits, List.count_cons_self]
  have place := fate.place
  have atMost := Bool.toNat_le (decide (m < s.lane.messages.length))
  have rest : (s.lane.queue.drop (s.lane.cursor + 1)).count m = 0 := by omega
  refine fate.touched current ?_ ?_ rfl ?_ ?_ ?_ ?_ rfl
  · rw [counts, rest]
    rfl
  · change (s.lane.queue.drop (s.lane.cursor + 1)).count m + (decide (m = m)).toNat + 0 + 0 = 1
    rw [rest, decide_eq_true rfl]
    rfl
  · intro ahead
    exact absurd ahead (List.count_eq_zero.mp rest)
  · intro _
    rw [show results (s.lane.events err .idle) m = [] from rfl, List.append_nil]
    exact fate.waits (by rw [splits]; exact List.mem_cons_self)
  · intro event
    cases event
  · intro event
    cases event

/-- The counter is written as it will be read. -/
theorem fate_write {retries : Int64} {v : Bytes} (small : limit < 10 ^ 16)
    (fate : Fate limit s m) (current : s.workers[i]? = some (.writing m retries))
    (text : itoa (retries + 1) = some v) :
    Fate limit (s.delivered i err (.writing m retries)
      { s.lane with toQueue := s.lane.setHeaders m ((s.lane.headers m).insert "retries" v) }
      (.requeueing m)) m := by
  have holds : (Stage.writing m retries).holds m = true := decide_eq_true rfl
  obtain ⟨r, below, counted, failures⟩ := fate.held _ (List.mem_of_getElem? current) holds
  obtain ⟨v', text', read⟩ := itoa_read (Nat.succ_pos r) (by omega)
  have isText : v' = v := by
    rw [counted, show (1 : Int64) = Int64.ofNat 1 from rfl, ← Int64.ofNat_add, text'] at text
    exact Option.some.inj text
  refine fate.goesOn current rfl holds rfl (length_setHeaders _ _ _) (decide_eq_true rfl) rfl ?_
  refine ⟨r + 1, below, ?_, failures⟩
  rw [headers_setHeaders_self (fate.inside current holds), retriesOf_insert, ← isText]
  exact read

theorem fate_requeue (fate : Fate limit s m) (within : s.lane.cursor ≤ s.lane.queue.length)
    (current : s.workers[i]? = some (.requeueing m)) :
    Fate limit (s.delivered i err (.requeueing m) { s.lane with toQueue := s.lane.requeue m }
      (.requeued m)) m := by
  have holds : (Stage.requeueing m).holds m = true := decide_eq_true rfl
  have tried := fate.held _ (List.mem_of_getElem? current) holds
  have longer : ({ s.lane with toQueue := s.lane.requeue m } : Lane).ahead =
      s.lane.ahead ++ [m] := List.drop_append_of_le_length within
  refine fate.touched current (fate.sole current holds) ?_ rfl ?_ ?_ ?_ ?_ rfl
  · rw [longer, List.count_append, fate.notAhead current holds]
    simp [Lane.events, Stage.holds]
  · intro _
    rw [show results (s.lane.events err (.requeueing m)) m = [] from rfl, List.append_nil]
    exact tried
  · intro requeued
    cases requeued
  · intro event
    cases List.mem_singleton.mp event
  · intro event
    cases List.mem_singleton.mp event

/-- The message gets its outcome. -/
theorem Fate.ends (fate : Fate limit s m) (current : s.workers[i]? = some stage)
    (holds : stage.holds m = true) (lets : after.holds m = false)
    (outcome : (s.lane.events err stage).count (.acked m) +
      (s.lane.events err stage).count (.dead m) = 1)
    (silent : results (s.lane.events err stage) m = [])
    (acked : .acked m ∈ s.lane.events err stage → Acked limit (results s.events m))
    (dead : .dead m ∈ s.lane.events err stage → Exhausted limit (results s.events m))
    (calls : deliveries (s.lane.events err stage) m + (stage.handles m).toNat = 0) :
    Fate limit (s.delivered i err stage s.lane after) m := by
  have notAhead := fate.notAhead current holds
  refine fate.touched current (fate.sole current holds) ?_ rfl ?_ ?_ ?_ ?_ ?_
  · rw [notAhead, lets, Nat.add_assoc, outcome]
    rfl
  · intro ahead
    exact absurd ahead (List.count_eq_zero.mp notAhead)
  · intro holdsAfter
    rw [lets] at holdsAfter
    cases holdsAfter
  · rw [silent, List.append_nil]
    exact acked
  · rw [silent, List.append_nil]
    exact dead
  · rw [calls, silent, handles_of_not_holds lets]
    rfl

/-- A step of a subscriber keeps the fate of every message. -/
theorem fate_delivered (isLimit : s.maxRetries = Int64.ofNat limit) (small : limit < 10 ^ 16)
    (fate : Fate limit s m) (within : s.lane.cursor ≤ s.lane.queue.length)
    (current : s.workers[i]? = some stage)
    (delivers : Delivers s.maxRetries s.lane err stage lane after) :
    Fate limit (s.delivered i err stage lane after) m := by
  by_cases untouched : stage.holds m = false ∧ after.holds m = false
  · exact fate.apart current untouched.1 untouched.2
      (delivers.apart within untouched.1 untouched.2)
  have member := List.mem_of_getElem? current
  cases delivers with
  | wait atEnd => exact absurd ⟨rfl, rfl⟩ untouched
  | @take _ mv found =>
      have same : mv = m := by simpa [Stage.holds] using untouched
      subst same
      exact fate_take fate current found
  | call pos mv =>
      have same : mv = m := by simpa [Stage.holds] using untouched
      subst same
      have holds : (Stage.taken pos mv).holds mv = true := decide_eq_true rfl
      have tried := fate.held _ member holds
      refine fate.stays current holds rfl rfl rfl rfl (decide_eq_true rfl) ?_ ?_
      · rw [show results (s.lane.events err (.taken pos mv)) mv = [] from rfl, List.append_nil]
        exact tried
      · simp [deliveries, results, Lane.events, Event.callsFor, Event.resultOf, Stage.handles]
  | succeed pos mv =>
      have same : mv = m := by simpa [Stage.holds] using untouched
      subst same
      have holds : (Stage.handling pos mv).holds mv = true := decide_eq_true rfl
      obtain ⟨r, below, _, failures⟩ := fate.held _ member holds
      have isNew : results (s.lane.events false (.handling pos mv)) mv = [false] := by
        simp [results, Lane.events, Event.resultOf]
      refine fate.stays current holds rfl rfl rfl rfl (decide_eq_true rfl) ?_ ?_
      · rw [isNew, failures]
        exact ⟨r, below, rfl⟩
      · rw [isNew]
        simp [deliveries, Lane.events, Event.callsFor, Stage.handles]
  | fail pos mv =>
      have same : mv = m := by simpa [Stage.holds] using untouched
      subst same
      have holds : (Stage.handling pos mv).holds mv = true := decide_eq_true rfl
      obtain ⟨r, below, counted, failures⟩ := fate.held _ member holds
      have isNew : results (s.lane.events true (.handling pos mv)) mv = [true] := by
        simp [results, Lane.events, Event.resultOf]
      refine fate.stays current holds rfl rfl rfl rfl (decide_eq_true rfl) ?_ ?_
      · rw [isNew, failures, replicate_snoc]
        exact ⟨r, below, counted, rfl⟩
      · rw [isNew]
        simp [deliveries, Lane.events, Event.callsFor, Stage.handles]
  | ack mv =>
      have same : mv = m := by simpa [Stage.holds] using untouched
      subst same
      have holds : (Stage.succeeded mv).holds mv = true := decide_eq_true rfl
      refine fate.ends current holds rfl (by simp [Lane.events]) rfl ?_ ?_ rfl
      · exact fun _ => fate.held _ member holds
      · intro event
        cases List.mem_singleton.mp event
  | @giveUp _ mv reached =>
      have same : mv = m := by simpa [Stage.holds] using untouched
      subst same
      have holds : (Stage.failed mv).holds mv = true := decide_eq_true rfl
      obtain ⟨r, below, counted, failures⟩ := fate.held _ member holds
      rw [isLimit, counted, le_ofNat_iff small below] at reached
      refine fate.goesOn current rfl holds rfl rfl (decide_eq_true rfl) rfl ?_
      exact reached ▸ failures
  | @retry _ mv notReached =>
      have same : mv = m := by simpa [Stage.holds] using untouched
      subst same
      have holds : (Stage.failed mv).holds mv = true := decide_eq_true rfl
      obtain ⟨r, below, counted, failures⟩ := fate.held _ member holds
      rw [isLimit, counted, le_ofNat_iff small below] at notReached
      refine fate.goesOn current rfl holds rfl rfl (decide_eq_true rfl) rfl ?_
      exact ⟨r, by omega, counted, failures⟩
  | clear mv retries =>
      have same : mv = m := by simpa [Stage.holds] using untouched
      subst same
      have holds : (Stage.clearing mv retries).holds mv = true := decide_eq_true rfl
      exact fate.goesOn current rfl holds rfl (length_setHeaders _ _ _) (decide_eq_true rfl) rfl
        (fate.held _ member holds)
  | @write _ mv retries v text =>
      have same : mv = m := by simpa [Stage.holds] using untouched
      subst same
      exact fate_write small fate current text
  | requeue mv =>
      have same : mv = m := by simpa [Stage.holds] using untouched
      subst same
      exact fate_requeue fate within current
  | countRetried mv => exact absurd ⟨rfl, rfl⟩ untouched
  | bury mv =>
      have same : mv = m := by simpa [Stage.holds] using untouched
      subst same
      have holds : (Stage.burying mv).holds mv = true := decide_eq_true rfl
      refine fate.ends current holds rfl (by simp [Lane.events]) rfl ?_ ?_ rfl
      · intro event
        cases List.mem_singleton.mp event
      · exact fun _ => fate.held _ member holds
  | countDead mv => exact absurd ⟨rfl, rfl⟩ untouched
  | route mv => exact absurd ⟨rfl, rfl⟩ untouched
  | send mv => exact absurd ⟨rfl, rfl⟩ untouched

end Delivered

/-! ## A group alone on its topic -/

/-- Every message has its fate. -/
structure Kept (limit : Nat) (s : Solo) : Prop where
  maxRetries : s.maxRetries = Int64.ofNat limit
  within : s.lane.cursor ≤ s.lane.queue.length
  fates : ∀ m, Fate limit s m

theorem kept_fresh (limit : Nat) : Kept limit (Solo.fresh (Int64.ofNat limit)) := by
  refine ⟨rfl, Nat.le_refl _, fun m => ?_⟩
  exact ⟨rfl, fun ahead => absurd ahead List.not_mem_nil,
    fun _ member => absurd member List.not_mem_nil,
    fun event => absurd event List.not_mem_nil, fun event => absurd event List.not_mem_nil, rfl,
    fun _ => rfl⟩

section Kept

variable {limit : Nat} {s : Solo} {name : String}

/-- A message that is not published yet is nowhere. -/
theorem Fate.nowhere {m : Nat} (fate : Fate limit s m) (outside : s.lane.messages.length ≤ m) :
    s.lane.ahead.count m = 0 ∧ s.workers.countP (Stage.holds m) = 0 ∧
      s.events.count (.acked m) = 0 ∧ s.events.count (.dead m) = 0 := by
  have place := fate.place
  rw [decide_eq_false (Nat.not_lt.mpr outside)] at place
  change _ = 0 at place
  omega

theorem ahead_published (within : s.lane.cursor ≤ s.lane.queue.length) (key : String)
    (value : Bytes) (headers : Headers) :
    (s.published name key value headers).lane.ahead = s.lane.ahead ++ [s.lane.messages.length] :=
  List.drop_append_of_le_length within

/-- The new message starts without a failure. -/
theorem fate_new {key : String} {value : Bytes} {headers : Headers}
    (fate : Fate limit s s.lane.messages.length) (within : s.lane.cursor ≤ s.lane.queue.length)
    (plain : headers.lookup "retries" = none) :
    Fate limit (s.published name key value headers) s.lane.messages.length := by
  obtain ⟨notAhead, notHeld, notAcked, notDead⟩ := fate.nowhere (Nat.le_refl _)
  have longer : (s.published name key value headers).lane.messages.length =
      s.lane.messages.length + 1 := List.length_append
  constructor
  · rw [ahead_published within, longer, List.count_append, notAhead]
    simp [Solo.published, notHeld, notAcked, notDead]
  · intro _
    refine ⟨0, Nat.zero_le _, ?_, fate.unborn (Nat.le_refl _)⟩
    have added : (s.published name key value headers).lane.headers s.lane.messages.length =
        headers := by
      simp [Queue.headers, Solo.published, Queue.append]
    rw [added, retriesOf, plain]
    rfl
  · intro stage member holds
    exact absurd holds (List.countP_eq_zero.mp notHeld stage member)
  · intro event
    exact absurd event (List.count_eq_zero.mp notAcked)
  · intro event
    exact absurd event (List.count_eq_zero.mp notDead)
  · exact fate.calls
  · rw [longer]
    intro outside
    omega

theorem fate_published {m : Nat} {key : String} {value : Bytes} {headers : Headers}
    (fate : Fate limit s m) (within : s.lane.cursor ≤ s.lane.queue.length)
    (old : m ≠ s.lane.messages.length) : Fate limit (s.published name key value headers) m := by
  have longer : (s.published name key value headers).lane.messages.length =
      s.lane.messages.length + 1 := List.length_append
  have sameAhead : (s.published name key value headers).lane.ahead.count m =
      s.lane.ahead.count m := by
    rw [ahead_published within, List.count_append, List.count_singleton,
      if_neg (by simpa using Ne.symm old)]
    rfl
  have sameHeaders : (s.published name key value headers).lane.headers m = s.lane.headers m := by
    have sameMessage (message : Message) :
        (s.lane.messages ++ [message])[m]? = s.lane.messages[m]? := by
      rcases Nat.lt_or_gt_of_ne old with below | above
      · exact List.getElem?_append_left below
      · rw [List.getElem?_eq_none (Nat.le_of_lt above),
          List.getElem?_eq_none (by rw [List.length_append]; exact above)]
    simp only [Queue.headers, Solo.published, Queue.append, sameMessage]
  constructor
  · have place := fate.place
    have sameInside : decide (m < s.lane.messages.length + 1) =
        decide (m < s.lane.messages.length) := by
      rw [decide_eq_decide]
      omega
    rw [sameAhead, longer, sameInside]
    exact place
  · intro ahead
    rw [sameHeaders]
    refine fate.waits ?_
    rw [← List.count_pos_iff, ← sameAhead]
    exact List.count_pos_iff.mpr ahead
  · rw [sameHeaders]
    exact fate.held
  · exact fate.acked
  · exact fate.dead
  · exact fate.calls
  · rw [longer]
    intro outside
    exact fate.unborn (by omega)

theorem fate_join {m : Nat} (fate : Fate limit s m) :
    Fate limit { s with workers := s.workers ++ [.idle] } m := by
  have free (p : Stage → Bool) (notIdle : p .idle = false) :
      (s.workers ++ [Stage.idle]).countP p = s.workers.countP p := by
    rw [List.countP_append, List.countP_singleton, notIdle]
    rfl
  refine ⟨?_, fate.waits, ?_, fate.acked, fate.dead, ?_, fate.unborn⟩
  · rw [free (Stage.holds m) rfl]
    exact fate.place
  · exact Library.each_concat fate.held (fun holds => by cases holds)
  · rw [free (Stage.handles m) rfl]
    exact fate.calls

theorem kept_steps {act : SoloAct} {next : Solo} (small : limit < 10 ^ 16) (kept : Kept limit s)
    (plain : ∀ message, act.message = some message → message.2.2.lookup "retries" = none)
    (steps : Solo.Steps name s act next) : Kept limit next := by
  cases steps with
  | publish key value headers =>
      refine ⟨kept.maxRetries, ?_, fun m => ?_⟩
      · have longer : (s.lane.queue ++ [s.lane.messages.length]).length =
            s.lane.queue.length + 1 := List.length_append
        exact Nat.le_trans kept.within (longer ▸ Nat.le_succ _)
      · by_cases isNew : m = s.lane.messages.length
        · subst isNew
          exact fate_new (kept.fates _) kept.within (plain _ rfl)
        · exact fate_published (kept.fates m) kept.within isNew
  | join => exact ⟨kept.maxRetries, kept.within, fun m => fate_join (kept.fates m)⟩
  | deliver current delivers =>
      refine ⟨kept.maxRetries, delivers.cursor_le kept.within, fun m => ?_⟩
      exact fate_delivered kept.maxRetries small (kept.fates m) kept.within current delivers
  | panic current panicked => exact kept

/-- The counter of a message that is put back fits into the buffer of `itoa`. -/
theorem Kept.goesOn (kept : Kept limit s) (small : limit < 10 ^ 16) {stage : Stage}
    (member : stage ∈ s.workers) (err : Bool) :
    s.lane.deliver s.maxRetries err stage ≠ none := by
  cases stage with
  | idle =>
      simp only [Lane.deliver]
      cases s.lane.queue[s.lane.cursor]? with
      | none => exact Option.some_ne_none _
      | some mv => exact Option.some_ne_none _
  | writing mv retries =>
      obtain ⟨r, below, counted, _⟩ := (kept.fates mv).held _ member (decide_eq_true rfl)
      obtain ⟨v, text, _⟩ := itoa_read (Nat.succ_pos r) (by omega)
      have written : itoa (retries + 1) = some v := by
        rw [counted, show (1 : Int64) = Int64.ofNat 1 from rfl, ← Int64.ofNat_add]
        exact text
      simp only [Lane.deliver, written]
      exact Option.some_ne_none _
  | _ => exact Option.some_ne_none _

end Kept

/-! ## The outcome -/

section Outcome

variable {limit : Nat} {s : Solo} {m : Nat}

/-- The first deliveries, one more than the limit, all failed. -/
def AllFailed (limit : Nat) (results : List Bool) : Prop :=
  results.take (limit + 1) = List.replicate (limit + 1) true

theorem allFailed_replicate {r : Nat} : AllFailed limit (List.replicate r true) ↔ limit < r := by
  unfold AllFailed
  rw [List.take_replicate, List.replicate_inj]
  constructor
  · intro same
    omega
  · intro below
    exact ⟨by omega, Or.inr rfl⟩

theorem Acked.not_allFailed {results : List Bool} (acked : Acked limit results) :
    ¬ AllFailed limit results := by
  obtain ⟨r, below, rfl⟩ := acked
  intro allFailed
  have whole : (List.replicate r true ++ [false]).take (limit + 1) =
      List.replicate r true ++ [false] := by
    apply List.take_of_length_le
    rw [List.length_append, List.length_replicate, List.length_singleton]
    omega
  unfold AllFailed at allFailed
  rw [whole] at allFailed
  have last : false ∈ List.replicate (limit + 1) true := by
    rw [← allFailed]
    exact List.mem_append_right _ (List.mem_singleton_self _)
  cases List.eq_of_mem_replicate last

theorem Acked.length_le {results : List Bool} (acked : Acked limit results) :
    results.length ≤ limit + 1 := by
  obtain ⟨r, below, rfl⟩ := acked
  rw [List.length_append, List.length_replicate, List.length_singleton]
  omega

theorem Tried.length_le {retries : Int64} {results : List Bool}
    (tried : Tried limit retries results) : results.length ≤ limit := by
  obtain ⟨r, below, _, rfl⟩ := tried
  rw [List.length_replicate]
  exact below

theorem Tried.not_allFailed {retries : Int64} {results : List Bool}
    (tried : Tried limit retries results) : ¬ AllFailed limit results := by
  obtain ⟨r, below, _, rfl⟩ := tried
  rw [allFailed_replicate]
  omega

theorem Exhausted.allFailed {results : List Bool} (exhausted : Exhausted limit results) :
    AllFailed limit results := by
  rw [exhausted, allFailed_replicate]
  exact Nat.lt_succ_self _

theorem Exhausted.length_le {results : List Bool} (exhausted : Exhausted limit results) :
    results.length ≤ limit + 1 := by
  rw [exhausted, List.length_replicate]

theorem Stage.Tells.length_le {retries : Int64} {results : List Bool} {stage : Stage}
    (holds : stage.holds m = true) (tells : stage.Tells limit retries results) :
    results.length ≤ limit + 1 := by
  have triedLe (tried : Tried limit retries results) : results.length ≤ limit + 1 :=
    Nat.le_succ_of_le tried.length_le
  cases stage with
  | taken pos mv => exact triedLe tells
  | handling pos mv => exact triedLe tells
  | requeueing mv => exact triedLe tells
  | succeeded mv => exact Acked.length_le tells
  | burying mv => exact Exhausted.length_le tells
  | failed mv =>
      obtain ⟨r, below, _, rfl⟩ := tells
      rw [List.length_replicate]
      omega
  | clearing mv n =>
      obtain ⟨r, below, _, rfl⟩ := tells
      rw [List.length_replicate]
      omega
  | writing mv n =>
      obtain ⟨r, below, _, rfl⟩ := tells
      rw [List.length_replicate]
      omega
  | _ => cases holds

/-- The places where a message can be. -/
theorem Fate.cases (fate : Fate limit s m) :
    results s.events m = [] ∨
    Tried limit (retriesOf (s.lane.headers m)) (results s.events m) ∨
    (∃ stage ∈ s.workers, stage.holds m = true ∧
      stage.Tells limit (retriesOf (s.lane.headers m)) (results s.events m)) ∨
    Acked limit (results s.events m) ∨
    (.dead m ∈ s.events ∧ Exhausted limit (results s.events m)) := by
  have place := fate.place
  by_cases inside : m < s.lane.messages.length
  · rw [decide_eq_true inside] at place
    change _ = 1 at place
    by_cases ahead : 0 < s.lane.ahead.count m
    · exact Or.inr (Or.inl (fate.waits (List.count_pos_iff.mp ahead)))
    by_cases held : 0 < s.workers.countP (Stage.holds m)
    · obtain ⟨stage, member, holds⟩ := List.countP_pos_iff.mp held
      exact Or.inr (Or.inr (Or.inl ⟨stage, member, holds, fate.held stage member holds⟩))
    by_cases acked : 0 < s.events.count (.acked m)
    · exact Or.inr (Or.inr (Or.inr (Or.inl (fate.acked (List.count_pos_iff.mp acked)))))
    have dead : .dead m ∈ s.events := by
      rw [← List.count_pos_iff]
      omega
    exact Or.inr (Or.inr (Or.inr (Or.inr ⟨dead, fate.dead dead⟩)))
  · exact Or.inl (fate.unborn (Nat.not_lt.mp inside))

theorem Fate.results_le (fate : Fate limit s m) : (results s.events m).length ≤ limit + 1 := by
  rcases fate.cases with none | tried | ⟨stage, _, holds, tells⟩ | acked | ⟨_, exhausted⟩
  · rw [none]
    exact Nat.zero_le _
  · exact Nat.le_succ_of_le tried.length_le
  · exact tells.length_le holds
  · exact acked.length_le
  · exact exhausted.length_le

theorem holds_of_handles {stage : Stage} (handles : stage.handles m = true) :
    stage.holds m = true ∧ ∃ pos, stage = .handling pos m := by
  cases stage with
  | handling pos mv =>
      have same : mv = m := of_decide_eq_true handles
      exact ⟨handles, pos, same ▸ rfl⟩
  | _ => cases handles

/-- A message is delivered at most once more than the limit. -/
theorem Fate.deliveries_le (fate : Fate limit s m) : deliveries s.events m ≤ limit + 1 := by
  rw [fate.calls]
  by_cases busy : 0 < s.workers.countP (Stage.handles m)
  · obtain ⟨stage, member, handles⟩ := List.countP_pos_iff.mp busy
    obtain ⟨holds, pos, rfl⟩ := holds_of_handles handles
    have tried : Tried limit _ (results s.events m) := fate.held _ member holds
    have atMost : s.workers.countP (Stage.handles m) ≤ s.workers.countP (Stage.holds m) :=
      List.countP_mono_left fun stage _ handles => (holds_of_handles handles).1
    have place := fate.place
    have inside := Bool.toNat_le (decide (m < s.lane.messages.length))
    have below := tried.length_le
    omega
  · have bound := fate.results_le
    omega

/-- The message is about to be handed to `toDLQ`. -/
def Stage.Dooms (maxRetries : Int64) (lane : Lane) (m : Nat) (stage : Stage) : Prop :=
  stage = .burying m ∨ ∀ err, lane.deliver maxRetries err stage = some (lane, .burying m)

theorem Stage.Tells.dooms {stage : Stage} {lane : Lane} {results : List Bool}
    (small : limit < 10 ^ 16) (holds : stage.holds m = true)
    (tells : stage.Tells limit (retriesOf (lane.headers m)) results)
    (allFailed : AllFailed limit results) : stage.Dooms (Int64.ofNat limit) lane m := by
  cases stage with
  | taken pos mv => exact absurd allFailed (Tried.not_allFailed tells)
  | handling pos mv => exact absurd allFailed (Tried.not_allFailed tells)
  | requeueing mv => exact absurd allFailed (Tried.not_allFailed tells)
  | succeeded mv => exact absurd allFailed (Acked.not_allFailed tells)
  | burying mv =>
      have same : mv = m := of_decide_eq_true holds
      exact Or.inl (congrArg Stage.burying same)
  | failed mv =>
      have same : mv = m := of_decide_eq_true holds
      subst same
      obtain ⟨r, below, counted, rfl⟩ := tells
      rw [allFailed_replicate] at allFailed
      have reached : Int64.ofNat limit ≤ retriesOf (lane.headers mv) := by
        rw [counted, le_ofNat_iff small below]
        omega
      refine Or.inr fun err => ?_
      simp only [Lane.deliver, if_pos reached]
  | clearing mv n =>
      obtain ⟨r, below, _, rfl⟩ := tells
      rw [allFailed_replicate] at allFailed
      omega
  | writing mv n =>
      obtain ⟨r, below, _, rfl⟩ := tells
      rw [allFailed_replicate] at allFailed
      omega
  | _ => cases holds

/-- A message whose deliveries all failed is dead, or about to be. -/
theorem Fate.dead_of_allFailed (fate : Fate limit s m) (small : limit < 10 ^ 16)
    (allFailed : AllFailed limit (results s.events m)) :
    .dead m ∈ s.events ∨ ∃ stage ∈ s.workers, stage.Dooms (Int64.ofNat limit) s.lane m := by
  rcases fate.cases with none | tried | ⟨stage, member, holds, tells⟩ | acked | ⟨dead, _⟩
  · rw [none] at allFailed
    cases allFailed
  · exact absurd allFailed tried.not_allFailed
  · exact Or.inr ⟨stage, member, tells.dooms small holds allFailed⟩
  · exact absurd allFailed acked.not_allFailed
  · exact Or.inl dead

end Outcome

end MiniCloud.Mq
