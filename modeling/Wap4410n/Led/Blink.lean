import Mathlib.Algebra.Ring.Parity
import Mathlib.Logic.Function.Iterate
import Mathlib.Tactic.Common
import Wap4410n.Support.Runs

/-!
# Led — blinking

The LEDs of `led_data` blink with the two timers of the driver, one a speed.  `led_blink` asks for a
LED to blink, and `led_blink_timer` is called when a timer expires.  Adding a timer that is pending
is a bug, which stops the kernel.

A LED has a row of the table and a bit of the output register.  What happens to it depends on
nothing else, although the LEDs share the timers and the register (`State.lamps_runs`).

* `ledBlink_safe`: no pending timer is added, a timer is pending just while its flag is set and as
  long as a LED blinks with it, and a LED that is asked for only once is toggled twice `count` times
  and then left as asked for.
-/

namespace Wap4410n.Led

open CLib Function

/-! ### The table and the register -/

/-- `LED_SLOW` and `LED_FAST` -/
inductive Speed where
  | slow
  | fast
deriving DecidableEq, Repr

/-- `struct led_data_s`; `count` is unsigned. -/
structure LedData where
  gpioPin : Nat
  count : Nat
  logic : Int
  speed : Speed
  lastStat : Int
deriving DecidableEq, Repr

/-- `GPIO_NULL` -/
def gpioNull : Nat := 255

/-- `led_data` -/
def ledData : List LedData :=
  [⟨3, 0, -1, .slow, 2⟩, ⟨0, 0, -1, .slow, 2⟩, ⟨1, 0, -1, .slow, 2⟩, ⟨gpioNull, 0, 0, .slow, 0⟩,
    ⟨11, 0, -1, .slow, 0⟩, ⟨2, 0, -1, .slow, 0⟩, ⟨gpioNull, 0, 0, .slow, 0⟩]

/-- The bits of `AR7100_GPIO_OUT`, and how often each of them was reversed. -/
structure Pins where
  out : Nat → Bool
  reversals : Nat → Nat

/-- The bit of a LED that is on. -/
def lit (logic : Int) : Bool := 0 < logic

namespace Pins

/-- `ar7100_gpio_out_val` -/
def outVal (p : Pins) (gpio : Nat) (val : Bool) : Pins := { p with out := update p.out gpio val }

/-- `led_on` -/
def ledOn (p : Pins) (gpio : Nat) (logic : Int) : Pins := p.outVal gpio (lit logic)

/-- `led_off` -/
def ledOff (p : Pins) (gpio : Nat) (logic : Int) : Pins := p.outVal gpio (!lit logic)

/-- `led_reverse` -/
def ledReverse (p : Pins) (gpio : Nat) : Pins :=
  { p.outVal gpio (!p.out gpio) with
    reversals := update p.reversals gpio (p.reversals gpio + 1) }

end Pins

/-- The loop of `led_blink_timer`, and `need_timer` behind it. -/
def blinkLoop (speed : Speed) : List LedData → Pins → List LedData × Pins × Bool
  | [], p => ([], p, false)
  | led :: leds, p =>
    if 0 < led.count ∧ led.speed = speed then
      let p := p.ledReverse led.gpioPin
      let led := { led with count := led.count - 1 }
      if 0 < led.count then
        let (leds, p, _) := blinkLoop speed leds p
        (led :: leds, p, true)
      else
        let p :=
          if led.lastStat = 0 then p.ledOff led.gpioPin led.logic
          else if led.lastStat = 1 then p.ledOn led.gpioPin led.logic
          else p
        let (leds, p, needTimer) := blinkLoop speed leds p
        (led :: leds, p, needTimer)
    else
      let (leds, p, needTimer) := blinkLoop speed leds p
      (led :: leds, p, needTimer)

/-! ### The driver -/

/-- The driver, with the rows of `led_data` up to the first `GPIO_NULL`: no loop goes further, and
`gpio_pin` is never stored to. -/
structure State where
  leds : List LedData
  pins : Pins
  /-- `led_slow_timer` and `led_fast_timer`: the `data` of those that are pending -/
  timer : Speed → Option Speed
  /-- `led_slow_timer_running` and `led_fast_timer_running` -/
  running : Speed → Int
  /-- a pending timer was added -/
  bug : Bool

/-- A request, whose `count` is a positive `int`. -/
structure Request where
  gpio : Nat
  count : Nat
  speed : Speed
  lastStat : Int
  count_pos : 1 ≤ count
  count_lt : count < 2 ^ 31
deriving DecidableEq

/-- What happens. -/
inductive Event where
  /-- `led_blink` -/
  | request (r : Request)
  /-- the timer of the speed expires -/
  | expire (speed : Speed)
deriving DecidableEq

/-- What `led_blink` stores into a row. -/
def LedData.ask (r : Request) (led : LedData) : LedData :=
  if led.gpioPin = r.gpio then
    { led with speed := r.speed, count := 2 * r.count % 2 ^ 32, lastStat := r.lastStat }
  else led

namespace State

/-- The timer is pending. -/
def Pending (st : State) (speed : Speed) : Prop := st.timer speed ≠ none

/-- `add_timer`, with the speed as `data` -/
def addTimer (st : State) (speed : Speed) : State :=
  match st.timer speed with
  | none => { st with timer := update st.timer speed (some speed) }
  | some _ => { st with bug := true }

/-- `led_blink_timer` -/
def ledBlinkTimer (st : State) (speed : Speed) : State :=
  let (leds, pins, needTimer) := blinkLoop speed st.leds st.pins
  let st := { st with leds := leds, pins := pins }
  if needTimer then st.addTimer speed
  else { st with running := update st.running speed 0 }

/-- `led_blink` -/
def ledBlink (st : State) (r : Request) : State :=
  let st := { st with leds := st.leds.map (LedData.ask r) }
  if st.running r.speed = 0 then
    { st with running := update st.running r.speed 1 }.addTimer r.speed
  else st

/-- One event; a timer that expires is pending no longer when its function is called. -/
def step (st : State) : Event → State
  | .request r => st.ledBlink r
  | .expire speed =>
    match st.timer speed with
    | some data => { st with timer := update st.timer speed none }.ledBlinkTimer data
    | none => st

/-- A timer expires only while it is pending. -/
def Possible (st : State) : Event → Prop
  | .request _ => True
  | .expire speed => st.Pending speed

instance (st : State) : DecidablePred st.Possible
  | .request _ => inferInstanceAs (Decidable True)
  | .expire speed => inferInstanceAs (Decidable (st.timer speed ≠ none))

end State

/-- The module as it is loaded. -/
def loaded (pins : Pins) : State where
  leds := ledData.takeWhile fun led => led.gpioPin ≠ gpioNull
  pins := pins
  timer _ := none
  running _ := 0
  bug := false

/-! ### One LED -/

/-- A row of the table, with the bit of the register that belongs to it. -/
structure Lamp where
  led : LedData
  level : Bool
  reversals : Nat

/-- The level a LED is left at, where it is at `level`. -/
def LedData.leftLevel (led : LedData) (level : Bool) : Bool :=
  if led.lastStat = 0 then !lit led.logic
  else if led.lastStat = 1 then lit led.logic
  else level

@[simp] theorem LedData.ask_gpioPin (r : Request) (led : LedData) :
    (led.ask r).gpioPin = led.gpioPin := by
  unfold ask
  split <;> rfl

namespace Lamp

/-- What a timer does to a LED. -/
def blink (speed : Speed) (l : Lamp) : Lamp :=
  if 0 < l.led.count ∧ l.led.speed = speed then
    { led := { l.led with count := l.led.count - 1 }
      level := if 1 < l.led.count then !l.level else l.led.leftLevel !l.level
      reversals := l.reversals + 1 }
  else l

/-- What an event does to a LED. -/
def step (l : Lamp) : Event → Lamp
  | .request r => { l with led := l.led.ask r }
  | .expire speed => l.blink speed

theorem blink_gpioPin (speed : Speed) (l : Lamp) :
    (l.blink speed).led.gpioPin = l.led.gpioPin := by
  unfold blink
  split <;> rfl

theorem step_gpioPin (l : Lamp) (e : Event) : (l.step e).led.gpioPin = l.led.gpioPin := by
  cases e with
  | request r => exact l.led.ask_gpioPin r
  | expire speed => exact l.blink_gpioPin speed

end Lamp

/-- The row with its bit. -/
def Pins.lamp (p : Pins) (led : LedData) : Lamp := ⟨led, p.out led.gpioPin, p.reversals led.gpioPin⟩

/-- The LEDs. -/
def State.lamps (st : State) : List Lamp := st.leds.map st.pins.lamp

/-! ### The loop over the table -/

namespace Pins

/-- The other bits are as they were. -/
def SameBut (gpio : Nat) (p p' : Pins) : Prop :=
  ∀ g, g ≠ gpio → p'.out g = p.out g ∧ p'.reversals g = p.reversals g

/-- A bit that is not touched belongs to the same LED as before. -/
theorem SameBut.lamp_eq {gpio : Nat} {p p' : Pins} (h : SameBut gpio p p') {led : LedData}
    (hled : led.gpioPin ≠ gpio) : p'.lamp led = p.lamp led := by
  obtain ⟨hout, hrev⟩ := h _ hled
  rw [lamp, lamp, hout, hrev]

/-- What a turn of the loop does to the register. -/
def turn (p : Pins) (led : LedData) : Pins :=
  let p := p.ledReverse led.gpioPin
  if 0 < led.count - 1 then p
  else if led.lastStat = 0 then p.ledOff led.gpioPin led.logic
  else if led.lastStat = 1 then p.ledOn led.gpioPin led.logic
  else p

theorem turn_same (p : Pins) (led : LedData) : SameBut led.gpioPin p (p.turn led) := by
  intro g hg
  simp only [turn, ledReverse, ledOff, ledOn, outVal]
  split
  · simp [hg]
  · split
    · simp [hg]
    · split <;> simp [hg]

/-- It is what the timer does to the LED of the row. -/
theorem turn_lamp (p : Pins) {led : LedData} (hled : 0 < led.count) :
    (p.turn led).lamp { led with count := led.count - 1 } = (p.lamp led).blink led.speed := by
  rw [Lamp.blink, if_pos ⟨hled, rfl⟩]
  simp only [turn, lamp, LedData.leftLevel, ledReverse, ledOff, ledOn, outVal, Nat.sub_pos_iff_lt]
  by_cases hlast : 1 < led.count
  · simp [hlast]
  · rcases eq_or_ne led.lastStat 0 with h0 | h0
    · simp [hlast, h0]
    · rcases eq_or_ne led.lastStat 1 with h1 | h1
      · simp [hlast, h1]
      · simp [hlast, h0, h1]

end Pins

/-- One turn of the loop and the rest of it. -/
theorem blinkLoop_cons (speed : Speed) (led : LedData) (leds : List LedData) (p : Pins) :
    blinkLoop speed (led :: leds) p =
      if 0 < led.count ∧ led.speed = speed then
        let (leds', p', needTimer) := blinkLoop speed leds (p.turn led)
        ({ led with count := led.count - 1 } :: leds', p', decide (0 < led.count - 1) || needTimer)
      else
        let (leds', p', needTimer) := blinkLoop speed leds p
        (led :: leds', p', needTimer) := by
  by_cases h : 0 < led.count ∧ led.speed = speed
  · rw [blinkLoop, if_pos h, if_pos h]
    by_cases hlast : 0 < led.count - 1
    · simp only [Pins.turn, hlast, ↓reduceIte, decide_true, Bool.true_or]
    · simp only [Pins.turn, hlast, ↓reduceIte, decide_false, Bool.false_or]
  · rw [blinkLoop, if_neg h, if_neg h]

/-- The pins of the rows. -/
def gpioPins (leds : List LedData) : List Nat := leds.map LedData.gpioPin

/-- What the loop over the rows is to do. -/
structure LoopSpec (speed : Speed) (leds : List LedData) (p : Pins)
    (res : List LedData × Pins × Bool) : Prop where
  lamps : res.1.map res.2.1.lamp = (leds.map p.lamp).map (Lamp.blink speed)
  frame : ∀ g, g ∉ gpioPins leds →
    res.2.1.out g = p.out g ∧ res.2.1.reversals g = p.reversals g
  needTimer : res.2.2 = true ↔ ∃ led ∈ res.1, 0 < led.count ∧ led.speed = speed

/-- One more row in front, whose turn touches its own bit alone. -/
theorem LoopSpec.cons {speed : Speed} {led led' : LedData} {leds : List LedData} {p p' : Pins}
    {res : List LedData × Pins × Bool} (hled : led.gpioPin ∉ gpioPins leds)
    (hsame : Pins.SameBut led.gpioPin p p') (hlamp : p'.lamp led' = (p.lamp led).blink speed)
    (h : LoopSpec speed leds p' res) :
    LoopSpec speed (led :: leds) p
      (led' :: res.1, res.2.1, decide (0 < led'.count ∧ led'.speed = speed) || res.2.2) := by
  have hpin : led'.gpioPin = led.gpioPin :=
    (congrArg (·.led.gpioPin) hlamp).trans (Lamp.blink_gpioPin speed _)
  refine ⟨?_, ?_, ?_⟩
  · have hrest : leds.map p'.lamp = leds.map p.lamp :=
      List.map_congr_left fun led'' hmem =>
        hsame.lamp_eq fun he => hled (he ▸ List.mem_map_of_mem hmem)
    obtain ⟨hout, hrev⟩ := h.frame led'.gpioPin (hpin ▸ hled)
    rw [List.map_cons, h.lamps, hrest, List.map_cons, List.map_cons, ← hlamp, Pins.lamp, Pins.lamp,
      hout, hrev]
  · intro g hg
    obtain ⟨hne, hg⟩ := not_or.mp (List.mem_cons.not.mp hg)
    obtain ⟨hout, hrev⟩ := h.frame g hg
    obtain ⟨hout', hrev'⟩ := hsame g hne
    exact ⟨hout.trans hout', hrev.trans hrev'⟩
  · simp only [Bool.or_eq_true, decide_eq_true_eq, h.needTimer, List.mem_cons, exists_eq_or_imp]

/-- **The loop** does to each LED what the timer does to it, and touches no other bit; a timer is
needed as long as one of them blinks with it. -/
theorem blinkLoop_spec (speed : Speed) (leds : List LedData) (p : Pins)
    (hpins : (gpioPins leds).Nodup) : LoopSpec speed leds p (blinkLoop speed leds p) := by
  induction leds generalizing p with
  | nil => exact ⟨rfl, fun _ _ => ⟨rfl, rfl⟩, by simp [blinkLoop]⟩
  | cons led leds ih =>
      obtain ⟨hled, hleds⟩ := List.nodup_cons.mp hpins
      rw [blinkLoop_cons]
      by_cases h : 0 < led.count ∧ led.speed = speed
      · obtain ⟨hpos, rfl⟩ := h
        have hcons := (ih (p.turn led) hleds).cons hled (p.turn_same led) (p.turn_lamp hpos)
        rw [if_pos ⟨hpos, rfl⟩]
        simpa using hcons
      · have hlamp : p.lamp led = (p.lamp led).blink speed := by
          exact (if_neg h).symm
        have hcons := (ih p hleds).cons hled (fun _ _ => ⟨rfl, rfl⟩) hlamp
        rw [if_neg h]
        simpa [h] using hcons

/-! ### The timers -/

/-- What holds of the driver between two events. -/
structure State.Inv (st : State) : Prop where
  pins : (gpioPins st.leds).Nodup
  bug : st.bug = false
  data : ∀ speed data, st.timer speed = some data → data = speed
  running : ∀ speed, st.running speed = if st.timer speed = none then 0 else 1
  due : ∀ led ∈ st.leds, 0 < led.count → st.Pending led.speed

namespace State

variable {st : State}

/-- The rows of the table. -/
theorem loaded_leds (pins : Pins) : (loaded pins).leds = ledData.take 3 := rfl

theorem inv_loaded (pins : Pins) : (loaded pins).Inv where
  pins := by
    rw [loaded_leds]
    decide
  bug := rfl
  data _ _ h := by cases h
  running _ := rfl
  due led hled hpos := by
    have hidle : ∀ led ∈ ledData.take 3, led.count = 0 := by decide
    exact absurd (hidle led hled) (Nat.pos_iff_ne_zero.mp hpos)

/-- Adding a timer that is not pending. -/
theorem addTimer_eq {speed : Speed} (h : st.timer speed = none) :
    st.addTimer speed = { st with timer := update st.timer speed (some speed) } := by
  rw [addTimer, h]

/-- **A request** is stored into its row, and the timer of its speed is pending then. -/
theorem ledBlink_eq (h : st.Inv) (r : Request) :
    st.ledBlink r = { st with
      leds := st.leds.map (LedData.ask r)
      timer := update st.timer r.speed (some r.speed)
      running := update st.running r.speed 1 } := by
  have hrunning := h.running r.speed
  cases htimer : st.timer r.speed with
  | none =>
      rw [if_pos htimer] at hrunning
      rw [ledBlink, if_pos hrunning]
      exact addTimer_eq htimer
  | some data =>
      rw [if_neg (htimer ▸ Option.some_ne_none data)] at hrunning
      rw [h.data _ _ htimer] at htimer
      rw [ledBlink, if_neg (hrunning ▸ one_ne_zero), ← htimer, ← hrunning, update_eq_self,
        update_eq_self]

/-- **A timer that expires** is pending again just when a LED still blinks with it. -/
theorem expire_eq (h : st.Inv) {speed : Speed} (hp : st.Pending speed) :
    st.step (.expire speed) =
      let res := blinkLoop speed st.leds st.pins
      { st with
        leds := res.1
        pins := res.2.1
        timer := update st.timer speed (if res.2.2 then some speed else none)
        running := update st.running speed (if res.2.2 then 1 else 0) } := by
  obtain ⟨data, hdata⟩ := Option.ne_none_iff_exists'.mp hp
  obtain rfl := h.data speed data hdata
  have hrunning : st.running data = 1 := by
    rw [h.running, if_neg hp]
  simp only [step, hdata, ledBlinkTimer]
  cases hneed : (blinkLoop data st.leds st.pins).2.2 with
  | true => simp [addTimer, ← hrunning]
  | false => simp

/-- Each LED for itself. -/
theorem lamps_step (h : st.Inv) {e : Event} (he : st.Possible e) :
    (st.step e).lamps = st.lamps.map (Lamp.step · e) := by
  cases e with
  | request r =>
      have hask :
          ∀ led, st.pins.lamp (LedData.ask r led) = (st.pins.lamp led).step (.request r) := by
        intro led
        rw [Pins.lamp, LedData.ask_gpioPin]
        rfl
      rw [step, ledBlink_eq h, lamps, lamps, List.map_map, List.map_map]
      exact List.map_congr_left fun led _ => hask led
  | expire speed =>
      rw [expire_eq h he]
      exact (blinkLoop_spec speed st.leds st.pins h.pins).lamps

/-- The rows are those of the LEDs. -/
theorem lamps_led (st : State) : st.lamps.map Lamp.led = st.leds := by
  rw [lamps, List.map_map]
  exact List.map_id _

/-- A row belongs to a LED that was there before. -/
theorem mem_leds_step (h : st.Inv) {e : Event} (he : st.Possible e) {led : LedData} :
    led ∈ (st.step e).leds ↔ ∃ l ∈ st.lamps, (l.step e).led = led := by
  rw [← lamps_led, lamps_step h he, List.map_map]
  exact List.mem_map

theorem gpioPins_step (h : st.Inv) {e : Event} (he : st.Possible e) :
    gpioPins (st.step e).leds = gpioPins st.leds := by
  rw [← lamps_led, ← lamps_led, lamps_step h he, gpioPins, gpioPins, List.map_map, List.map_map,
    List.map_map]
  exact List.map_congr_left fun l _ => l.step_gpioPin e

/-- The flag that is stored goes with the timer. -/
theorem armed_update (h : st.Inv) (speed : Speed) (armed : Bool) :
    (∀ s data, update st.timer speed (if armed then some speed else none) s = some data →
        data = s) ∧
      ∀ s, update st.running speed (if armed then 1 else 0) s =
        if update st.timer speed (if armed then some speed else none) s = none then 0 else 1 := by
  constructor
  · intro s data
    rcases eq_or_ne s speed with rfl | hs
    · cases armed with
      | true =>
          rw [update_self]
          rintro ⟨⟩
          rfl
      | false =>
          rw [update_self]
          rintro ⟨⟩
    · rw [update_of_ne hs]
      exact h.data s data
  · intro s
    rcases eq_or_ne s speed with rfl | hs
    · cases armed <;> simp
    · rw [update_of_ne hs, update_of_ne hs]
      exact h.running s

/-- A LED that goes on blinking with another timer was left alone. -/
theorem due_other (h : st.Inv) {e : Event} (he : st.Possible e) (speed : Speed)
    (heq : ∀ l : Lamp, (l.step e).led.speed ≠ speed → (l.step e).led = l.led) {led : LedData}
    (hled : led ∈ (st.step e).leds) (hpos : 0 < led.count) (hne : led.speed ≠ speed) :
    st.timer led.speed ≠ none := by
  obtain ⟨l, hl, rfl⟩ := (mem_leds_step h he).mp hled
  rw [heq l hne] at hpos ⊢
  refine h.due _ ?_ hpos
  rw [← lamps_led]
  exact List.mem_map_of_mem hl

/-- **The invariant.** -/
theorem inv_step (h : st.Inv) {e : Event} (he : st.Possible e) : (st.step e).Inv := by
  have hpins : (gpioPins (st.step e).leds).Nodup := gpioPins_step h he ▸ h.pins
  have hother := due_other h he
  cases e with
  | request r =>
      have harmed := armed_update h r.speed true
      rw [step, ledBlink_eq h] at hother hpins ⊢
      refine ⟨hpins, h.bug, harmed.1, harmed.2, fun led hled hpos => ?_⟩
      dsimp only [Pending]
      rcases eq_or_ne led.speed r.speed with hs | hs
      · rw [hs, update_self]
        exact Option.some_ne_none _
      · rw [update_of_ne hs]
        refine hother r.speed (fun l hl => ?_) hled hpos hs
        have hno : l.led.gpioPin ≠ r.gpio :=
          fun hpin => hl (by rw [Lamp.step, LedData.ask, if_pos hpin])
        rw [Lamp.step, LedData.ask, if_neg hno]
  | expire speed =>
      have hloop := blinkLoop_spec speed st.leds st.pins h.pins
      have harmed := armed_update h speed (blinkLoop speed st.leds st.pins).2.2
      rw [expire_eq h he] at hother hpins ⊢
      refine ⟨hpins, h.bug, harmed.1, harmed.2, fun led hled hpos => ?_⟩
      dsimp only [Pending]
      rcases eq_or_ne led.speed speed with hs | hs
      · rw [hs, update_self, if_pos (hloop.needTimer.mpr ⟨led, hled, hpos, hs⟩)]
        exact Option.some_ne_none _
      · rw [update_of_ne hs]
        refine hother speed (fun l hl => ?_) hled hpos hs
        have hno : ¬(0 < l.led.count ∧ l.led.speed = speed) := fun hyes =>
          hl (by rw [Lamp.step, Lamp.blink, if_pos hyes]; exact hyes.2)
        rw [Lamp.step, Lamp.blink, if_neg hno]

/-- **Each LED for itself**, over a run. -/
theorem lamps_runs {es : List Event} (h : st.Inv) (hes : Meets step Possible st es) :
    (runs step st es).Inv ∧
      (runs step st es).lamps = st.lamps.map fun l => runs Lamp.step l es := by
  induction es generalizing st with
  | nil => exact ⟨h, (List.map_id _).symm⟩
  | cons e es ih =>
      obtain ⟨he, hes⟩ := hes
      obtain ⟨hinv, hlamps⟩ := ih (inv_step h he) hes
      refine ⟨hinv, ?_⟩
      rw [runs_cons, hlamps, lamps_step h he, List.map_map]
      rfl

end State

/-! ### A LED that is asked for only once -/

/-- The event is no request for the LED. -/
def Event.Other (gpio : Nat) : Event → Prop
  | .request r => r.gpio ≠ gpio
  | .expire _ => True

namespace Lamp

/-- How far a LED has come whose count was `n`, when the timer of its speed has expired `k`
times. -/
structure After (l : Lamp) (n k : Nat) (l' : Lamp) : Prop where
  led : l'.led = { l.led with count := n - k }
  reversals : l'.reversals = l.reversals + min k n
  level : l'.level = if k < n then not^[k] l.level else l.led.leftLevel (not^[n] l.level)

/-- A LED that blinks no longer. -/
theorem runs_dark {l : Lamp} (hcount : l.led.count = 0) {es : List Event}
    (hes : ∀ e ∈ es, e.Other l.led.gpioPin) : runs step l es = l := by
  induction es with
  | nil => rfl
  | cons e es ih =>
      obtain ⟨he, hes⟩ := List.forall_mem_cons.mp hes
      have hstep : l.step e = l := by
        cases e with
        | request r => rw [step, LedData.ask, if_neg (Ne.symm he)]
        | expire speed => exact if_neg fun h => absurd hcount (Nat.pos_iff_ne_zero.mp h.1)
      rw [runs_cons, hstep, ih hes]

/-- A turn that is not the last. -/
theorem After.next {l l' : Lamp} {n k : Nat} (hn : l.led.count = n + 1) (hpos : 0 < n)
    (h : (l.blink l.led.speed).After n k l') : l.After (n + 1) (k + 1) l' := by
  have hblink : l.blink l.led.speed =
      { led := { l.led with count := n }, level := !l.level, reversals := l.reversals + 1 } := by
    rw [blink, if_pos ⟨hn ▸ n.succ_pos, rfl⟩, if_pos (hn ▸ Nat.succ_lt_succ hpos), hn]
    rfl
  rw [hblink] at h
  refine ⟨?_, ?_, ?_⟩
  · rw [h.led, Nat.add_sub_add_right]
  · rw [h.reversals, Nat.add_min_add_right, Nat.add_assoc, Nat.add_comm 1]
  · rw [h.level]
    simp only [Nat.add_lt_add_iff_right, iterate_succ_apply]
    rfl

/-- The last turn. -/
theorem After.last {l : Lamp} (hn : l.led.count = 1) (k : Nat) :
    l.After 1 (k + 1) (l.blink l.led.speed) := by
  rw [blink, if_pos ⟨hn ▸ Nat.one_pos, rfl⟩, if_neg (Nat.not_lt.mpr (Nat.le_of_eq hn)), hn]
  exact ⟨by simp, by simp, by simp⟩

/-- **Blinking.** -/
theorem runs_after (es : List Event) {l : Lamp} {n : Nat} (hn : l.led.count = n) (hpos : 0 < n)
    (hes : ∀ e ∈ es, e.Other l.led.gpioPin) :
    l.After n (es.count (.expire l.led.speed)) (runs step l es) := by
  induction es generalizing l n with
  | nil => exact ⟨by rw [← hn]; rfl, rfl, (if_pos hpos).symm⟩
  | cons e es ih =>
      obtain ⟨he, hrest⟩ := List.forall_mem_cons.mp hes
      by_cases hturn : e = .expire l.led.speed
      · have hpin := l.blink_gpioPin l.led.speed
        have hspeed : (l.blink l.led.speed).led.speed = l.led.speed := by
          rw [blink, if_pos ⟨hn ▸ hpos, rfl⟩]
        rw [hturn, runs_cons, List.count_cons_self]
        obtain ⟨n, rfl⟩ := Nat.exists_eq_succ_of_ne_zero (Nat.ne_of_gt hpos)
        have hleft : (l.blink l.led.speed).led.count = n := by
          rw [blink, if_pos ⟨hn ▸ hpos, rfl⟩, hn]
          rfl
        rcases Nat.eq_zero_or_pos n with rfl | hmore
        · have hdark : runs step (l.blink l.led.speed) es = l.blink l.led.speed :=
            runs_dark hleft (hpin.symm ▸ hrest)
          rw [step, hdark]
          exact After.last hn _
        · have hafter := ih hleft hmore (hpin.symm ▸ hrest)
          rw [hspeed] at hafter
          exact hafter.next hn hmore
      · have hstep : l.step e = l := by
          cases e with
          | request r => rw [step, LedData.ask, if_neg (Ne.symm he)]
          | expire speed => exact if_neg fun h => hturn (by rw [h.2])
        rw [runs_cons, hstep, List.count_cons_of_ne hturn]
        exact ih hn hpos hrest

end Lamp

/-- What becomes of a request, when the timer of its speed has expired `k` times: a LED whose timer
has expired often enough is at the level it is to be left at. -/
structure Blinked (led : LedData) (r : Request) (st : State) (k : Nat) (st' : State) : Prop where
  toggled : st'.pins.reversals r.gpio = st.pins.reversals r.gpio + min k (2 * r.count)
  goesOn : k < 2 * r.count → st'.Pending r.speed
  left : 2 * r.count ≤ k → st'.pins.out r.gpio = (led.ask r).leftLevel (st.pins.out r.gpio)

/-- The LED right behind the request. -/
theorem step_request (p : Pins) {led : LedData} {r : Request} (hr : r.gpio = led.gpioPin) :
    (p.lamp led).step (.request r) =
      { led := { led with speed := r.speed, count := 2 * r.count, lastStat := r.lastStat }
        level := p.out r.gpio
        reversals := p.reversals r.gpio } := by
  have hlt := r.count_lt
  rw [Lamp.step, Pins.lamp, LedData.ask, if_pos hr.symm, Nat.mod_eq_of_lt (by omega), hr]

/-- **A request** that no other one supersedes. -/
theorem blinked {st : State} (h : st.Inv) {led : LedData} (hled : led ∈ st.leds) {r : Request}
    (hr : r.gpio = led.gpioPin) {es : List Event}
    (hes : Meets State.step State.Possible (st.step (.request r)) es)
    (hother : ∀ e ∈ es, e.Other r.gpio) :
    Blinked led r st (es.count (.expire r.speed))
      (runs State.step (st.step (.request r)) es) := by
  have hreq : st.Possible (.request r) := trivial
  obtain ⟨hinv, hlamps⟩ := State.lamps_runs (State.inv_step h hreq) hes
  -- the LED is still one of them
  have hmem : runs Lamp.step ((st.pins.lamp led).step (.request r)) es ∈
      (runs State.step (st.step (.request r)) es).lamps := by
    rw [hlamps, State.lamps_step h hreq]
    exact List.mem_map_of_mem (List.mem_map_of_mem (List.mem_map_of_mem hled))
  obtain ⟨led', hled', hlamp⟩ := List.mem_map.mp hmem
  have hasked := step_request st.pins hr
  generalize (st.pins.lamp led).step (.request r) = asked at hasked hlamp
  have hpos : 0 < 2 * r.count := Nat.mul_pos Nat.two_pos r.count_pos
  obtain ⟨hrow, hrev, hlevel⟩ :=
    Lamp.runs_after es (congrArg (·.led.count) hasked) hpos (by rw [hasked]; exact hr ▸ hother)
  rw [← hlamp, hasked] at hrow hrev hlevel
  have hpin : led'.gpioPin = r.gpio := (congrArg LedData.gpioPin hrow).trans hr.symm
  simp only [Pins.lamp, hpin] at hrow hrev hlevel
  refine ⟨hrev, fun hk => ?_, fun hk => ?_⟩
  · have hspeed : led'.speed = r.speed := congrArg LedData.speed hrow
    have hcount := congrArg LedData.count hrow
    exact hspeed ▸ hinv.due led' hled' (hcount ▸ Nat.sub_pos_of_lt hk)
  · rw [hlevel, if_neg (Nat.not_lt.mpr hk), Bool.involutive_not.iterate_even (even_two_mul r.count),
      LedData.ask, if_pos hr.symm]
    rfl

/-- What is to hold of the driver. -/
structure Sound (st : State) : Prop where
  /-- no pending timer was added -/
  bug : st.bug = false
  running : ∀ speed, st.running speed = 1 ↔ st.Pending speed
  due : ∀ led ∈ st.leds, 0 < led.count → st.Pending led.speed
  blinked : ∀ led ∈ st.leds, ∀ r : Request, r.gpio = led.gpioPin →
    ∀ es, Meets State.step State.Possible (st.step (.request r)) es →
      (∀ e ∈ es, e.Other r.gpio) →
        Blinked led r st (es.count (.expire r.speed))
          (runs State.step (st.step (.request r)) es)

/-- **Blinking is safe** in every run of the module, and a request does what it says. -/
theorem ledBlink_safe (pins : Pins) (es : List Event)
    (hes : Meets State.step State.Possible (loaded pins) es) :
    Sound (runs State.step (loaded pins) es) := by
  have hinv := (State.lamps_runs (State.inv_loaded pins) hes).1
  refine ⟨hinv.bug, fun speed => ?_, hinv.due, fun led hled r hr es' => blinked hinv hled hr⟩
  rw [hinv.running, State.Pending]
  split <;> simp [*]

/-- A request for the power LED, to blink twice. -/
def twice : Request := ⟨1, 2, .slow, 1, by decide, by decide⟩

theorem ledBlink_safe_twice :
    Sound (runs State.step (loaded ⟨fun _ => true, fun _ => 0⟩)
      [.request twice, .expire .slow, .expire .slow]) :=
  ledBlink_safe ⟨fun _ => true, fun _ => 0⟩ [.request twice, .expire .slow, .expire .slow]
    (by decide)

end Wap4410n.Led
