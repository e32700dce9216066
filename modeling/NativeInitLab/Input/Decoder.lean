import Mathlib.Data.List.Basic

namespace NativeInitLab.Input

/-! The decoder that turns the three buttons into gestures, and the hand that presses them. -/

abbrev Mask := BitVec 3

def buttonVolup : Mask := 1#3
def buttonVoldown : Mask := 2#3
def buttonPower : Mask := 4#3

def doubleClickMs : Int := 350
def longPressMs : Int := 800

def evKey : Nat := 1
def keyVolumedown : Nat := 114
def keyVolumeup : Nat := 115
def keyPower : Nat := 116

inductive GestureId
  | none
  | volupClick
  | voldownClick
  | powerClick
  | volupDouble
  | voldownDouble
  | powerDouble
  | volupLong
  | voldownLong
  | powerLong
  | volupVoldown
  | volupPower
  | voldownPower
  | allButtons
  deriving DecidableEq

structure Gesture where
  id : GestureId
  code : Nat
  mask : Mask
  clicks : Nat
  durationMs : Int
  deriving DecidableEq

structure Event where
  type : Nat
  code : Nat
  value : Int

structure Decoder where
  downMask : Mask := 0#3
  pressedMask : Mask := 0#3
  primaryCode : Nat := 0
  primaryMask : Mask := 0#3
  pendingCode : Nat := 0
  pendingMask : Mask := 0#3
  firstDownMs : Int := 0
  pendingUpMs : Int := 0
  pendingDurationMs : Int := 0
  waitingSecond : Bool := false
  secondClick : Bool := false

def buttonMaskFromKey (code : Nat) : Mask :=
  if code = keyVolumeup then buttonVolup
  else if code = keyVolumedown then buttonVoldown
  else if code = keyPower then buttonPower
  else 0#3

def buttonCount (mask : Mask) : Nat :=
  (if mask &&& buttonVolup ≠ 0#3 then 1 else 0) + (if mask &&& buttonVoldown ≠ 0#3 then 1 else 0) +
    (if mask &&& buttonPower ≠ 0#3 then 1 else 0)

def byKey (code : Nat) (volup voldown power : GestureId) : GestureId :=
  if code = keyVolumeup then volup
  else if code = keyVolumedown then voldown
  else if code = keyPower then power
  else .none

def singleGesture (code clicks : Nat) (durationMs : Int) : GestureId :=
  if durationMs ≥ longPressMs then byKey code .volupLong .voldownLong .powerLong
  else if clicks ≥ 2 then byKey code .volupDouble .voldownDouble .powerDouble
  else byKey code .volupClick .voldownClick .powerClick

def comboGesture (mask : Mask) : GestureId :=
  if mask = buttonVolup ||| buttonVoldown then .volupVoldown
  else if mask = buttonVolup ||| buttonPower then .volupPower
  else if mask = buttonVoldown ||| buttonPower then .voldownPower
  else if mask = buttonVolup ||| buttonVoldown ||| buttonPower then .allButtons
  else .none

namespace Decoder

def pending (decoder : Decoder) : Gesture :=
  ⟨singleGesture decoder.pendingCode 1 decoder.pendingDurationMs, decoder.pendingCode,
    decoder.pendingMask, 1, decoder.pendingDurationMs⟩

def emitPendingIfDue (decoder : Decoder) (now : Int) : Decoder × Option Gesture :=
  if decoder.waitingSecond = false then (decoder, none)
  else if now - decoder.pendingUpMs < doubleClickMs then (decoder, none)
  else ({ decoder with waitingSecond := false }, some decoder.pending)

def begin (decoder : Decoder) (code : Nat) (mask : Mask) (now : Int) (second : Bool) : Decoder :=
  { decoder with
    waitingSecond := false, secondClick := second, downMask := mask, pressedMask := mask,
    primaryCode := code, primaryMask := mask, firstDownMs := now }

def press (decoder : Decoder) (code : Nat) (mask : Mask) (now : Int) : Decoder × Option Gesture :=
  if decoder.waitingSecond = true then
    if mask = decoder.pendingMask ∧ decoder.downMask = 0#3 ∧
        now - decoder.pendingUpMs ≤ doubleClickMs then
      (decoder.begin code mask now true, none)
    else
      -- The press itself is not registered here.
      ({ decoder with waitingSecond := false }, some decoder.pending)
  else if decoder.downMask = 0#3 then (decoder.begin code mask now false, none)
  else
    ({ decoder with
        downMask := decoder.downMask ||| mask, pressedMask := decoder.pressedMask ||| mask }, none)

def finish (decoder : Decoder) (now : Int) : Decoder × Option Gesture :=
  let durationMs := now - decoder.firstDownMs
  if buttonCount decoder.pressedMask > 1 then
    ({ decoder with pressedMask := 0#3 },
      some ⟨comboGesture decoder.pressedMask, decoder.primaryCode, decoder.pressedMask, 1,
        durationMs⟩)
  else if decoder.secondClick = true then
    ({ decoder with pressedMask := 0#3, secondClick := false },
      some ⟨singleGesture decoder.primaryCode 2 durationMs, decoder.primaryCode,
        decoder.primaryMask, 2, durationMs⟩)
  else if durationMs ≥ longPressMs then
    ({ decoder with pressedMask := 0#3 },
      some ⟨singleGesture decoder.primaryCode 1 durationMs, decoder.primaryCode,
        decoder.primaryMask, 1, durationMs⟩)
  else
    ({ decoder with
        waitingSecond := true, pendingCode := decoder.primaryCode,
        pendingMask := decoder.primaryMask, pendingUpMs := now,
        pendingDurationMs := durationMs }, none)

def release (decoder : Decoder) (mask : Mask) (now : Int) : Decoder × Option Gesture :=
  let decoder := { decoder with downMask := decoder.downMask &&& ~~~mask }
  if decoder.downMask = 0#3 then decoder.finish now else (decoder, none)

def feed (decoder : Decoder) (event : Event) (now : Int) : Decoder × Option Gesture :=
  let mask := buttonMaskFromKey event.code
  if event.type ≠ evKey ∨ event.value = 2 then (decoder, none)
  else if mask = 0#3 then (decoder, none)
  else if event.value = 1 then decoder.press event.code mask now
  else if event.value = 0 ∧ decoder.downMask &&& mask ≠ 0#3 then decoder.release mask now
  else (decoder, none)

end Decoder

/-- An event that is read, or a call of `a90_input_decoder_emit_pending_if_due`. -/
inductive Step
  | feed (event : Event) (now : Int)
  | poll (now : Int)

def Decoder.step (decoder : Decoder) : Step → Decoder × Option Gesture
  | .feed event now => decoder.feed event now
  | .poll now => decoder.emitPendingIfDue now

def Decoder.after (decoder : Decoder) (steps : List Step) : Decoder :=
  steps.foldl (fun decoder step => (decoder.step step).1) decoder

def gestures : Decoder → List Step → List Gesture
  | _, [] => []
  | decoder, step :: steps => (decoder.step step).2.toList ++ gestures (decoder.step step).1 steps

/-! The buttons that are down, those pressed since all were up, and the intervals in which some
button was down, each as the set of buttons pressed in it. -/

structure Hand where
  down : Mask := 0#3
  pressed : Mask := 0#3

def Hand.feed (hand : Hand) (event : Event) : Hand :=
  let mask := buttonMaskFromKey event.code
  if event.type ≠ evKey ∨ mask = 0#3 then hand
  else if event.value = 1 then
    ⟨hand.down ||| mask, if hand.down = 0#3 then mask else hand.pressed ||| mask⟩
  else if event.value = 0 then ⟨hand.down &&& ~~~mask, hand.pressed⟩
  else hand

def Hand.step (hand : Hand) : Step → Hand
  | .feed event _ => hand.feed event
  | .poll _ => hand

def Hand.after (hand : Hand) (steps : List Step) : Hand := steps.foldl Hand.step hand

def Hand.ended (hand next : Hand) : List Mask :=
  if hand.down ≠ 0#3 ∧ next.down = 0#3 then [hand.pressed] else []

def intervals : Hand → List Step → List Mask
  | _, [] => []
  | hand, step :: steps => hand.ended (hand.step step) ++ intervals (hand.step step) steps

/-- The buttons that an identifier names. -/
def GestureId.mask : GestureId → Mask
  | .none => 0#3
  | .volupClick | .volupDouble | .volupLong => buttonVolup
  | .voldownClick | .voldownDouble | .voldownLong => buttonVoldown
  | .powerClick | .powerDouble | .powerLong => buttonPower
  | .volupVoldown => buttonVolup ||| buttonVoldown
  | .volupPower => buttonVolup ||| buttonPower
  | .voldownPower => buttonVoldown ||| buttonPower
  | .allButtons => buttonVolup ||| buttonVoldown ||| buttonPower

/-- The intervals that a gesture stands for: two if it is a double click. -/
def GestureId.clicks : GestureId → Nat
  | .none => 0
  | .volupDouble | .voldownDouble | .powerDouble => 2
  | _ => 1

/-- Every interval is covered by one gesture, in order, whose identifier names the buttons pressed
in it, and only a double click covers two. -/
structure Covers (gestures : List Gesture) (intervals : List Mask) : Prop where
  shape : ∀ gesture ∈ gestures,
    gesture.id.mask = gesture.mask ∧ gesture.id.clicks = gesture.clicks
  order : gestures.flatMap (fun gesture => List.replicate gesture.id.clicks gesture.mask) = intervals

theorem Covers.append {first second : List Gesture} {before after : List Mask}
    (hfirst : Covers first before) (hsecond : Covers second after) :
    Covers (first ++ second) (before ++ after) := by
  constructor
  · intro gesture hgesture
    rcases List.mem_append.mp hgesture with hgesture | hgesture
    · exact hfirst.shape gesture hgesture
    · exact hsecond.shape gesture hgesture
  · rw [List.flatMap_append, hfirst.order, hsecond.order]

theorem covers_nil : Covers [] [] := ⟨nofun, rfl⟩

theorem covers_one {gesture : Gesture} (hmask : gesture.id.mask = gesture.mask)
    (hclicks : gesture.id.clicks = gesture.clicks) :
    Covers [gesture] (List.replicate gesture.clicks gesture.mask) := by
  constructor
  · intro other hother
    rw [List.mem_singleton.mp hother]
    exact ⟨hmask, hclicks⟩
  · simp [hclicks]

theorem singleGesture_mask (code clicks : Nat) (durationMs : Int) :
    (singleGesture code clicks durationMs).mask = buttonMaskFromKey code := by
  unfold singleGesture byKey buttonMaskFromKey
  repeat' split
  all_goals rfl

theorem singleGesture_clicks {code : Nat} (hmask : buttonMaskFromKey code ≠ 0#3) (clicks : Nat)
    (durationMs : Int) : (singleGesture code clicks durationMs).clicks =
      if durationMs ≥ longPressMs then 1 else if clicks ≥ 2 then 2 else 1 := by
  revert hmask
  unfold singleGesture byKey buttonMaskFromKey
  repeat' split
  all_goals simp [GestureId.clicks]

theorem comboGesture_eq {mask : Mask} (hmask : buttonCount mask > 1) :
    (comboGesture mask).mask = mask ∧ (comboGesture mask).clicks = 1 := by
  revert mask
  decide

/-! What the decoder knows of the hand. -/

def Event.Presses (event : Event) : Prop :=
  event.type = evKey ∧ event.value = 1 ∧ buttonMaskFromKey event.code ≠ 0#3

def Event.Releases (event : Event) (down : Mask) : Prop :=
  event.type = evKey ∧ event.value = 0 ∧ down &&& buttonMaskFromKey event.code ≠ 0#3

/-- No press comes while a click is pending, except the second click in time, and none during the
second click, which is not a long one. -/
def Decoder.Calm (decoder : Decoder) : Step → Prop
  | .feed event now =>
    (event.Presses →
      (decoder.waitingSecond = true → buttonMaskFromKey event.code = decoder.pendingMask ∧
        now - decoder.pendingUpMs ≤ doubleClickMs) ∧
      ¬ (decoder.secondClick = true ∧ decoder.downMask ≠ 0#3)) ∧
    (event.Releases decoder.downMask → decoder.secondClick = true →
      now - decoder.firstDownMs < longPressMs)
  | .poll _ => True

def Undisturbed : Decoder → List Step → Prop
  | _, [] => True
  | decoder, step :: steps => decoder.Calm step ∧ Undisturbed (decoder.step step).1 steps

/-- The interval that has ended without a gesture so far. -/
def Decoder.owed (decoder : Decoder) : List Mask :=
  if decoder.waitingSecond = true then [decoder.pendingMask]
  else if decoder.secondClick = true ∧ decoder.downMask ≠ 0#3 then [decoder.primaryMask]
  else []

def IsKey (code : Nat) (mask : Mask) : Prop := buttonMaskFromKey code = mask ∧ mask ≠ 0#3

structure Knows (hand : Hand) (decoder : Decoder) : Prop where
  down : decoder.downMask = hand.down
  pressed : hand.down ≠ 0#3 → decoder.pressedMask = hand.pressed
  primary : hand.down ≠ 0#3 → IsKey decoder.primaryCode decoder.primaryMask ∧
    decoder.primaryMask &&& hand.pressed = decoder.primaryMask
  alone : hand.down ≠ 0#3 → decoder.secondClick = true → hand.pressed = decoder.primaryMask
  waiting : decoder.waitingSecond = true → hand.down = 0#3 ∧
    IsKey decoder.pendingCode decoder.pendingMask ∧ decoder.pendingDurationMs < longPressMs

theorem knows_start : Knows {} {} := ⟨rfl, nofun, nofun, nofun, nofun⟩

theorem IsKey.buttonCount {code : Nat} {mask : Mask} (hkey : IsKey code mask) :
    buttonCount mask = 1 := by
  obtain ⟨rfl, hmask⟩ := hkey
  revert hmask
  unfold buttonMaskFromKey
  repeat' split
  all_goals decide

theorem eq_of_single {mask whole : Mask} (hmask : buttonCount mask = 1)
    (hwithin : mask &&& whole = mask) (hwhole : ¬ buttonCount whole > 1) : whole = mask := by
  revert mask whole
  decide

theorem within_or {mask whole : Mask} (hwithin : mask &&& whole = mask) (other : Mask) :
    mask &&& (whole ||| other) = mask := by
  revert mask whole other
  decide

theorem or_ne_zero {mask : Mask} (hmask : mask ≠ 0#3) (other : Mask) : mask ||| other ≠ 0#3 := by
  revert mask other
  decide

theorem and_not_of_disjoint {mask whole : Mask} (hdisjoint : whole &&& mask = 0#3) :
    whole &&& ~~~mask = whole := by
  revert mask whole
  decide

section Steps

variable {hand : Hand} {decoder : Decoder}

/-- What one step leaves: the gesture, if any, covers what was owed or has just ended. -/
def Keeps (hand : Hand) (decoder : Decoder) (next : Hand) (result : Decoder × Option Gesture) :
    Prop :=
  Knows next result.1 ∧ ∃ covered, Covers result.2.toList covered ∧
    decoder.owed ++ hand.ended next = covered ++ result.1.owed

theorem keeps_same (hknows : Knows hand decoder) : Keeps hand decoder hand (decoder, none) := by
  refine ⟨hknows, [], covers_nil, ?_⟩
  have hended : hand.ended hand = [] := by simp [Hand.ended]
  simp [hended]

theorem keeps_poll (hknows : Knows hand decoder) (now : Int) :
    Keeps hand decoder hand (decoder.emitPendingIfDue now) := by
  unfold Decoder.emitPendingIfDue
  split
  case isTrue => exact keeps_same hknows
  case isFalse hwaiting =>
    split
    case isTrue => exact keeps_same hknows
    case isFalse =>
      have hwaits : decoder.waitingSecond = true := by simpa using hwaiting
      obtain ⟨hup, ⟨hmask, hnonzero⟩, hshort⟩ := hknows.waiting hwaits
      have hcovers : Covers [decoder.pending] [decoder.pendingMask] := by
        refine covers_one ((singleGesture_mask ..).trans hmask)
          ((singleGesture_clicks (hmask ▸ hnonzero) ..).trans ?_)
        rw [if_neg (Int.not_le.mpr hshort)]
        rfl
      refine ⟨⟨hknows.down, hknows.pressed, hknows.primary, hknows.alone, nofun⟩,
        [decoder.pendingMask], hcovers, ?_⟩
      simp [Decoder.owed, hwaits, Hand.ended, hknows.down, hup]

theorem Knows.begin {mask : Mask} {code : Nat} (hkey : IsKey code mask) (hup : hand.down = 0#3)
    (now : Int) (second : Bool) :
    Knows ⟨hand.down ||| mask, if hand.down = 0#3 then mask else hand.pressed ||| mask⟩
      (decoder.begin code mask now second) := by
  rw [if_pos hup, hup, BitVec.zero_or]
  exact ⟨rfl, fun _ => rfl, fun _ => ⟨hkey, BitVec.and_self⟩, fun _ _ => rfl, nofun⟩

theorem keeps_press (hknows : Knows hand decoder) {event : Event} {now : Int}
    (hpresses : event.Presses) (hcalm : decoder.Calm (.feed event now)) :
    Keeps hand decoder (hand.feed event)
      (decoder.press event.code (buttonMaskFromKey event.code) now) := by
  obtain ⟨htype, hvalue, hmask⟩ := hpresses
  obtain ⟨hintime, hsecond⟩ := hcalm.1 ⟨htype, hvalue, hmask⟩
  generalize hkey : buttonMaskFromKey event.code = mask at *
  have hnext : hand.feed event =
      ⟨hand.down ||| mask, if hand.down = 0#3 then mask else hand.pressed ||| mask⟩ := by
    simp [Hand.feed, hkey, htype, hmask, hvalue]
  have hended : hand.ended (hand.feed event) = [] := by
    have hdown : hand.down ||| mask ≠ 0#3 := by
      rw [BitVec.or_comm]
      exact or_ne_zero hmask _
    rw [hnext, Hand.ended, if_neg fun h => hdown h.2]
  have hquiet {result : Decoder} (hresult : Knows (hand.feed event) result)
      (howed : decoder.owed = result.owed) : Keeps hand decoder (hand.feed event) (result, none) :=
    ⟨hresult, [], covers_nil, by rw [hended, howed, List.append_nil]; rfl⟩
  unfold Decoder.press
  split
  case isTrue hwaits =>
    obtain ⟨hpending, hearly⟩ := hintime hwaits
    obtain ⟨hup, -⟩ := hknows.waiting hwaits
    rw [if_pos ⟨hpending, hknows.down.trans hup, hearly⟩]
    refine hquiet ?_ ?_
    · rw [hnext]
      exact Knows.begin ⟨hkey, hmask⟩ hup _ _
    · simp [Decoder.owed, Decoder.begin, hwaits, hmask, ← hpending]
  case isFalse hidle =>
    have hwaits : decoder.waitingSecond = false := by simpa using hidle
    split
    case isTrue hup =>
      rw [hknows.down] at hup
      refine hquiet ?_ ?_
      · rw [hnext]
        exact Knows.begin ⟨hkey, hmask⟩ hup _ _
      · simp [Decoder.owed, Decoder.begin, hwaits, hknows.down, hup]
    case isFalse hdown =>
      have hfirst : decoder.secondClick = false := by
        simpa using fun h => hsecond ⟨h, hdown⟩
      rw [hknows.down] at hdown
      obtain ⟨hprimary, hwithin⟩ := hknows.primary hdown
      refine hquiet ?_ ?_
      · rw [hnext, if_neg hdown]
        refine ⟨?_, fun _ => ?_, fun _ => ⟨hprimary, within_or hwithin mask⟩, fun _ h => ?_,
          fun h => ?_⟩
        · rw [hknows.down]
        · rw [hknows.pressed hdown]
        · exact absurd (hfirst.symm.trans h) (by decide)
        · exact absurd (hwaits.symm.trans h) (by decide)
      · simp [Decoder.owed, hwaits, hfirst]

theorem keeps_release (hknows : Knows hand decoder) {mask : Mask} (now : Int)
    (hheld : decoder.downMask &&& mask ≠ 0#3)
    (hclick : decoder.secondClick = true → now - decoder.firstDownMs < longPressMs) :
    Keeps hand decoder ⟨hand.down &&& ~~~mask, hand.pressed⟩ (decoder.release mask now) := by
  have hdown : hand.down ≠ 0#3 := by
    intro hup
    rw [hknows.down, hup, BitVec.zero_and] at hheld
    exact hheld rfl
  have hwaits : decoder.waitingSecond = false := by
    simpa using fun h => hdown (hknows.waiting h).1
  obtain ⟨hprimary, hwithin⟩ := hknows.primary hdown
  have hcount := hprimary.buttonCount
  have hknown : buttonMaskFromKey decoder.primaryCode ≠ 0#3 := hprimary.1 ▸ hprimary.2
  have hpressed := hknows.pressed hdown
  unfold Decoder.release
  dsimp only
  rw [hknows.down]
  split
  case isFalse hleft =>
    refine ⟨⟨rfl, fun _ => hpressed, fun _ => ⟨hprimary, hwithin⟩, fun _ => hknows.alone hdown, ?_⟩,
      [], covers_nil, ?_⟩
    · intro h
      exact absurd (hwaits.symm.trans h) (by decide)
    · simp [Decoder.owed, Hand.ended, hwaits, hknows.down, hdown, hleft]
  case isTrue hleft =>
    have hended : hand.ended ⟨hand.down &&& ~~~mask, hand.pressed⟩ = [hand.pressed] :=
      if_pos ⟨hdown, hleft⟩
    have hups (result : Decoder) (hzero : result.downMask = hand.down &&& ~~~mask)
        (hdone : result.waitingSecond = true → IsKey result.pendingCode result.pendingMask ∧
          result.pendingDurationMs < longPressMs) :
        Knows ⟨hand.down &&& ~~~mask, hand.pressed⟩ result :=
      ⟨hzero, fun h => absurd hleft h, fun h => absurd hleft h, fun h => absurd hleft h,
        fun h => ⟨hleft, hdone h⟩⟩
    have hnever (P : Prop) (h : decoder.waitingSecond = true) : P :=
      absurd (hwaits.symm.trans h) (by decide)
    unfold Keeps
    rw [hended]
    unfold Decoder.finish
    dsimp only
    rw [hpressed]
    split
    case isTrue hcombo =>
      have hid := comboGesture_eq hcombo
      have hfirst : decoder.secondClick = false := by
        rw [← Bool.not_eq_true]
        intro h
        rw [hknows.alone hdown h, hcount] at hcombo
        exact absurd hcombo (by decide)
      refine ⟨hups _ rfl (hnever _), [hand.pressed], covers_one hid.1 hid.2, ?_⟩
      simp [Decoder.owed, hwaits, hfirst]
    case isFalse hsingle =>
      have hsame : hand.pressed = decoder.primaryMask := eq_of_single hcount hwithin hsingle
      split
      case isTrue hsecond =>
        have hclicks := singleGesture_clicks hknown 2 (now - decoder.firstDownMs)
        rw [if_neg (Int.not_le.mpr (hclick hsecond))] at hclicks
        refine ⟨hups _ rfl (hnever _), [decoder.primaryMask, decoder.primaryMask],
          covers_one ((singleGesture_mask ..).trans hprimary.1) hclicks, ?_⟩
        simp [Decoder.owed, hwaits, hsecond, hknows.down, hdown, hsame]
      case isFalse hfirst =>
        split
        case isTrue hlong =>
          have hclicks := singleGesture_clicks hknown 1 (now - decoder.firstDownMs)
          rw [if_pos hlong] at hclicks
          refine ⟨hups _ rfl (hnever _), [decoder.primaryMask],
            covers_one ((singleGesture_mask ..).trans hprimary.1) hclicks, ?_⟩
          simp [Decoder.owed, hwaits, hfirst, hsame]
        case isFalse hshort =>
          refine ⟨hups _ rfl fun _ => ⟨hprimary, Int.not_le.mp hshort⟩, [], covers_nil, ?_⟩
          simp [Decoder.owed, hwaits, hfirst, hsame]

theorem keeps_step (hknows : Knows hand decoder) {step : Step} (hcalm : decoder.Calm step) :
    Keeps hand decoder (hand.step step) (decoder.step step) := by
  cases step with
  | poll now => exact keeps_poll hknows now
  | feed event now =>
    show Keeps hand decoder (hand.feed event) (decoder.feed event now)
    by_cases hpresses : event.Presses
    · obtain ⟨htype, hvalue, hmask⟩ := hpresses
      have hfeed : decoder.feed event now =
          decoder.press event.code (buttonMaskFromKey event.code) now := by
        simp [Decoder.feed, htype, hvalue, hmask]
      rw [hfeed]
      exact keeps_press hknows ⟨htype, hvalue, hmask⟩ hcalm
    · unfold Decoder.feed
      dsimp only
      split
      case isTrue hother =>
        have hsame : hand.feed event = hand := by
          rcases hother with htype | hvalue
          · simp [Hand.feed, htype]
          · simp [Hand.feed, hvalue]
        rw [hsame]
        exact keeps_same hknows
      case isFalse hkey =>
        rw [not_or, not_not] at hkey
        split
        case isTrue hmask =>
          have hsame : hand.feed event = hand := by simp [Hand.feed, hmask]
          rw [hsame]
          exact keeps_same hknows
        case isFalse hmask =>
          have hvalue : event.value ≠ 1 := fun h => hpresses ⟨hkey.1, h, hmask⟩
          rw [if_neg hvalue]
          split
          case isTrue hreleased =>
            have hnext : hand.feed event =
                ⟨hand.down &&& ~~~(buttonMaskFromKey event.code), hand.pressed⟩ := by
              simp [Hand.feed, hkey.1, hmask, hreleased.1]
            rw [hnext]
            exact keeps_release hknows now hreleased.2 (hcalm.2 ⟨hkey.1, hreleased⟩)
          case isFalse hreleased =>
            have hsame : hand.feed event = hand := by
              by_cases hzero : event.value = 0
              · have hheld : hand.down &&& buttonMaskFromKey event.code = 0#3 := by
                  rw [← hknows.down]
                  simpa [hzero] using hreleased
                have hkept := and_not_of_disjoint hheld
                simp [Hand.feed, hkey.1, hmask, hzero, hkept]
              · simp [Hand.feed, hvalue, hzero]
            rw [hsame]
            exact keeps_same hknows

end Steps

theorem covers_run {hand : Hand} {decoder : Decoder} (hknows : Knows hand decoder)
    {steps : List Step} (hcalm : Undisturbed decoder steps) :
    Knows (hand.after steps) (decoder.after steps) ∧
      ∃ covered, Covers (gestures decoder steps) covered ∧
        decoder.owed ++ intervals hand steps = covered ++ (decoder.after steps).owed := by
  induction steps generalizing hand decoder with
  | nil => exact ⟨hknows, [], covers_nil, by simp [intervals, Decoder.after]⟩
  | cons step steps ih =>
    obtain ⟨hnext, first, hfirst, howed⟩ := keeps_step hknows hcalm.1
    obtain ⟨hlast, rest, hrest, hremains⟩ := ih hnext hcalm.2
    refine ⟨hlast, first ++ rest, hfirst.append hrest, ?_⟩
    calc decoder.owed ++ intervals hand (step :: steps) =
          (decoder.owed ++ hand.ended (hand.step step)) ++ intervals (hand.step step) steps :=
        (List.append_assoc _ _ _).symm
      _ = first ++ ((decoder.step step).1.owed ++ intervals (hand.step step) steps) := by
        rw [howed, List.append_assoc]
      _ = first ++ rest ++ (decoder.after (step :: steps)).owed := by
        rw [hremains, ← List.append_assoc]
        rfl

/-- Once all buttons are up and the pending click is due, every interval has its gesture, in every
run in which no press disturbs a pending click or a second click, and no second click is long. -/
theorem undisturbed_presses_become_gestures (steps : List Step) (now : Int)
    (hcalm : Undisturbed {} steps) (hup : (Hand.after {} steps).down = 0#3)
    (hdue : (Decoder.after {} steps).waitingSecond = true →
      doubleClickMs ≤ now - (Decoder.after {} steps).pendingUpMs) :
    Covers (gestures {} steps ++ ((Decoder.after {} steps).emitPendingIfDue now).2.toList)
      (intervals {} steps) := by
  obtain ⟨hknows, covered, hcovers, howed⟩ := covers_run knows_start hcalm
  obtain ⟨hknows', last, hlast, hpolled⟩ := keeps_poll hknows now
  have hnothing : ((Decoder.after {} steps).emitPendingIfDue now).1.owed = [] := by
    unfold Decoder.emitPendingIfDue
    split
    case isTrue hidle => simp [Decoder.owed, hidle, hknows.down, hup]
    case isFalse hwaits =>
      rw [if_neg (by simpa using hdue (by simpa using hwaits))]
      simp [Decoder.owed, hknows.down, hup]
  rw [hnothing, List.append_nil, Hand.ended, if_neg fun h => h.1 hup, List.append_nil] at hpolled
  have hall : intervals {} steps = covered ++ last := by
    rw [← hpolled, ← howed]
    rfl
  rw [hall]
  exact hcovers.append hlast

def Step.press (code : Nat) (now : Int) : Step := .feed ⟨evKey, code, 1⟩ now

def Step.release (code : Nat) (now : Int) : Step := .feed ⟨evKey, code, 0⟩ now

def doubleClick : List Step :=
  [.press keyVolumeup 0, .release keyVolumeup 100, .press keyVolumeup 200, .release keyVolumeup 300]

theorem undisturbed_presses_become_gestures_double :
    Covers (gestures {} doubleClick ++ ((Decoder.after {} doubleClick).emitPendingIfDue 400).2.toList)
      (intervals {} doubleClick) := by
  refine undisturbed_presses_become_gestures doubleClick 400 ?_ (by decide) (by decide)
  exact ⟨⟨fun _ => ⟨nofun, by decide⟩, nofun⟩, ⟨fun h => absurd h.2.1 (by decide), nofun⟩,
    ⟨fun _ => ⟨fun _ => ⟨by decide, by decide⟩, by decide⟩, nofun⟩,
    ⟨fun h => absurd h.2.1 (by decide), fun _ _ => by decide⟩, trivial⟩

def otherAfterClick : List Step :=
  [.press keyVolumeup 0, .release keyVolumeup 100, .press keyVolumedown 200,
    .release keyVolumedown 300, .poll 1000]

def otherDuringSecond : List Step :=
  [.press keyPower 0, .release keyPower 100, .press keyPower 200, .press keyVolumeup 250,
    .release keyVolumeup 300, .release keyPower 350, .poll 1000]

def longSecond : List Step :=
  [.press keyPower 0, .release keyPower 100, .press keyPower 200, .release keyPower 1200, .poll 2000]

theorem disturbed_presses_are_lost :
    ¬ Covers (gestures {} otherAfterClick) (intervals {} otherAfterClick) ∧
      ¬ Covers (gestures {} otherDuringSecond) (intervals {} otherDuringSecond) ∧
      (gestures {} longSecond).map Gesture.id = [.powerLong] ∧
      ¬ Covers (gestures {} longSecond) (intervals {} longSecond) :=
  ⟨fun h => absurd h.order (by decide), fun h => absurd h.order (by decide), by decide,
    fun h => absurd h.order (by decide)⟩

end NativeInitLab.Input
