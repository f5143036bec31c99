import ScriptBridge.Proofs.Loading

/-!
# Which calls are carried out

A script names a native, says with a signature how its values are to be handed over, and gives
the values. Seven things can be wrong with that, and none of them may be found out too late: a
call is either refused before anything happened, or everything about it is in order and it is
made, once.

`Accepted` says in one place which calls are in order. It knows nothing of the staging area, so
it also says what the call depends on. Values that stand in for what the native writes are part
of an accepted call, but of nothing that is made of it.
-/

namespace ScriptBridge

/--
**The calls that are in order**, with the name, the signature and the values they come down to. A
name alone is a call without arguments. Otherwise there is a value for each slot that the script
supplies, and then either nothing or something for each slot that the native writes.
-/
inductive Accepted (knows : String → Bool) :
    List ScriptValue → String → Signature → List ScriptValue → Prop where
  | bare {name : String} : name ≠ "" → knows name = true →
      Accepted knows [.text name] name ⟨[]⟩ []
  | full {name text : String} {signature : Signature} {values placeholders : List ScriptValue} :
      name ≠ "" → knows name = true → Signature.parse text = .ok signature →
      signature.physicalCount ≤ Signature.maxSlots →
      List.Forall₂ Fits (plainSlots signature.slots) values →
      (placeholders.length = 0 ∨ placeholders.length = signature.referenceCount) →
      Accepted knows (.text name :: .text text :: (values ++ placeholders)) name signature values

/-- An error that comes up before anything is called. A staging area without enough slots is none,
because there is no such area. -/
def InvokeError.Refusal : InvokeError → Prop
  | .call _ => False
  | .noSlot _ => False
  | _ => True

/-- Something that calls natives, noting the calls that it is asked for, the latest last. -/
def Dispatcher.noted {S : Type} (dispatcher : Dispatcher S) :
    Dispatcher (S × List (String × List NativeArgument)) where
  knows s name := dispatcher.knows s.1 name
  call s name arguments :=
    let (result, after, next) := dispatcher.call s.1 name arguments
    (result, after, next, s.2 ++ [(name, arguments)])

/-! ## Signatures and slots -/

theorem plainSlots_length (signature : Signature) :
    (plainSlots signature.slots).length = signature.argumentCount := by
  unfold plainSlots Signature.argumentCount
  rw [List.countP_eq_length_filter]

theorem slotCount_eq (signature : Signature) :
    Staging.slotCount signature.slots = signature.physicalCount := by
  unfold Signature.physicalCount
  induction signature.slots with
  | nil => rfl
  | cons type types ih =>
      rw [Staging.slotCount_cons, ih, List.length_cons, List.count_cons]
      cases type <;> simp [Staging.width] <;> omega

/-- Slots that are staged stand for the arguments of the call. -/
theorem Staging.Staged.physical {types : List SlotType} {values : List ScriptValue}
    {slots : List StagedSlot} (h : Staged types values slots) :
    Physical types values ((slots.take (slotCount types)).map (·.argument)) := by
  induction h with
  | nil => exact .nil
  | value hb _ _ ih =>
      rw [taken_cons hb.width]
      exact .value hb ih
  | @intRef types values slot slots hkind hzero _ ih =>
      have harg : slot.argument = .reference 0 := by simp [StagedSlot.argument, hkind, hzero]
      rw [taken_cons rfl, harg]
      exact .intRef ih
  | @floatRef types values slot slots hkind hzero _ ih =>
      have harg : slot.argument = .reference 0 := by simp [StagedSlot.argument, hkind, hzero]
      rw [taken_cons rfl, harg]
      exact .floatRef ih
  | @textRef types values slot size behind slots hkind hout hlen hskind hsize _ ih =>
      have harg : slot.argument = .buffer (0 :: behind) := by simp [StagedSlot.argument, hkind, hout]
      have hsarg : size.argument = .integer (Cell.ofSize maxTextLength) := by
        simp [StagedSlot.argument, hskind, hsize]
      rw [taken_text, harg, hsarg]
      exact .textRef hlen ih

theorem Physical.length {types : List SlotType} {values : List ScriptValue}
    {arguments : List NativeArgument} (h : Physical types values arguments) :
    arguments.length = Staging.slotCount types := by
  induction h with
  | nil => rfl
  | value hb _ ih =>
      rw [Staging.slotCount_cons, List.length_cons, ih, hb.width, Nat.add_comm]
  | intRef _ ih => rw [Staging.slotCount_cons, List.length_cons, ih, Nat.add_comm]; rfl
  | floatRef _ ih => rw [Staging.slotCount_cons, List.length_cons, ih, Nat.add_comm]; rfl
  | textRef _ _ ih =>
      rw [Staging.slotCount_cons, List.length_cons, List.length_cons, ih]
      show Staging.slotCount _ + 2 = 2 + Staging.slotCount _
      omega

theorem Accepted.known {knows : String → Bool} {arguments : List ScriptValue} {name : String}
    {signature : Signature} {values : List ScriptValue}
    (h : Accepted knows arguments name signature values) : knows name = true := by
  cases h with
  | bare _ hknown => exact hknown
  | full _ hknown _ _ _ _ => exact hknown

/-- A call has no more arguments than a native can have. -/
theorem Accepted.physicalCount_le {knows : String → Bool} {arguments : List ScriptValue}
    {name : String} {signature : Signature} {values : List ScriptValue}
    (h : Accepted knows arguments name signature values) :
    signature.physicalCount ≤ Signature.maxSlots := by
  cases h with
  | bare _ _ => exact Nat.zero_le _
  | full _ _ _ hcount _ _ => exact hcount

/-- So the size of the parameters is a cell. -/
theorem Accepted.length_lt {knows : String → Bool} {arguments : List ScriptValue}
    {name : String} {signature : Signature} {values : List ScriptValue}
    {physical : List NativeArgument} (h : Accepted knows arguments name signature values)
    (hphysical : Physical signature.slots values physical) : physical.length < 2 ^ 29 := by
  rw [hphysical.length, slotCount_eq]
  exact Nat.lt_of_le_of_lt h.physicalCount_le (by decide)

/-! ## Refusals -/

theorem refusal?_refusal {type : SlotType} {index : Nat} {value : ScriptValue} {e : InvokeError}
    (h : type.refusal? index value = some e) : e.Refusal := by
  cases type with
  | int =>
      simp only [SlotType.refusal?] at h
      split at h
      · exact absurd h (by simp)
      · rw [← Option.some.inj h]; trivial
  | float =>
      simp only [SlotType.refusal?] at h
      split at h
      · exact absurd h (by simp)
      · rw [← Option.some.inj h]; trivial
  | text =>
      simp only [SlotType.refusal?] at h
      split at h
      · rw [← Option.some.inj h]; trivial
      · exact absurd h (by simp)
  | array =>
      simp only [SlotType.refusal?] at h
      split at h
      · rw [← Option.some.inj h]; trivial
      · split at h
        · rw [← Option.some.inj h]; trivial
        · obtain ⟨found, _, rfl⟩ := Option.map_eq_some_iff.mp h
          trivial
  | _ => exact absurd h (by simp [SlotType.refusal?])

theorem refusals?_refusal : ∀ {types : List SlotType} {values : List ScriptValue} {index : Nat}
    {e : InvokeError}, refusals? types values index = some e → e.Refusal
  | [], values, _, _, h => by exact absurd h (by simp [refusals?])
  | type :: types, values, index, e, h => by
      unfold refusals? at h
      split at h
      · exact refusals?_refusal h
      · cases values with
        | nil => rw [← Option.some.inj h]; trivial
        | cons value values =>
            rcases Option.or_eq_some_iff.mp h with h | ⟨_, h⟩
            · exact refusal?_refusal h
            · exact refusals?_refusal h

namespace Invoker

variable {S : Type}

theorem checkedSignature_ok {arguments : List ScriptValue} {text : String} {signature : Signature}
    (hparse : Signature.parse text = .ok signature)
    (hcount : signature.physicalCount ≤ Signature.maxSlots)
    (hlen : arguments.length = signature.argumentCount + leading ∨
      arguments.length = signature.argumentCount + leading + signature.referenceCount) :
    checkedSignature arguments (.text text) = .ok signature := by
  unfold checkedSignature ScriptValue.text?
  dsimp only
  rw [hparse]
  dsimp only
  rw [if_neg (by omega), if_neg (by omega)]

/-- A signature that suits the call, or the reason why it does not. -/
theorem checkedSignature_cases (arguments : List ScriptValue) (v : ScriptValue) :
    (∃ e : InvokeError, e.Refusal ∧ checkedSignature arguments v = .error e) ∨
    ∃ (text : String) (signature : Signature), v = .text text
      ∧ Signature.parse text = .ok signature ∧ signature.physicalCount ≤ Signature.maxSlots
      ∧ (arguments.length = signature.argumentCount + leading ∨
        arguments.length = signature.argumentCount + leading + signature.referenceCount)
      ∧ checkedSignature arguments v = .ok signature := by
  cases v with
  | text text =>
      cases hparse : Signature.parse text with
      | error e =>
          refine Or.inl ⟨.signature e, trivial, ?_⟩
          unfold checkedSignature ScriptValue.text?
          dsimp only
          rw [hparse]
      | ok signature =>
          by_cases hcount : signature.physicalCount ≤ Signature.maxSlots
          · by_cases hlen : arguments.length = signature.argumentCount + leading ∨
              arguments.length = signature.argumentCount + leading + signature.referenceCount
            · exact Or.inr ⟨text, signature, rfl, hparse, hcount, hlen,
                checkedSignature_ok hparse hcount hlen⟩
            · refine Or.inl ⟨.argumentCount (signature.argumentCount + leading) arguments.length,
                trivial, ?_⟩
              unfold checkedSignature ScriptValue.text?
              dsimp only
              rw [hparse]
              dsimp only
              rw [if_neg (by omega), if_pos (by omega)]
          · refine Or.inl ⟨.tooManyArguments signature.physicalCount Signature.maxSlots,
              trivial, ?_⟩
            unfold checkedSignature ScriptValue.text?
            dsimp only
            rw [hparse]
            dsimp only
            rw [if_pos (by omega)]
  | _ => exact Or.inl ⟨.signatureNotText, trivial, rfl⟩

theorem callWith_unloaded {invoker : Invoker} (dispatcher : Dispatcher S) (s : S) {name : String}
    {arguments : List ScriptValue} {v : ScriptValue} {signature : Signature} {e : InvokeError}
    {staging' : Staging} (hcheck : checkedSignature arguments v = .ok signature)
    (hload : invoker.staging.load signature.slots
      ((arguments.drop leading).take signature.argumentCount) 0 leading = (.error e, staging')) :
    callWith invoker dispatcher s name arguments v = (.error e, ⟨staging'⟩, s) := by
  unfold callWith
  rw [hcheck]
  dsimp only
  rw [hload]

theorem callWith_loaded {invoker : Invoker} (dispatcher : Dispatcher S) (s : S) {name : String}
    {arguments : List ScriptValue} {v : ScriptValue} {signature : Signature}
    {staging' : Staging} (hcheck : checkedSignature arguments v = .ok signature)
    (hload : invoker.staging.load signature.slots
      ((arguments.drop leading).take signature.argumentCount) 0 leading = (.ok (), staging')) :
    callWith invoker dispatcher s name arguments v =
      callStaged ⟨staging'⟩ dispatcher s name signature := by
  unfold callWith
  rw [hcheck]
  dsimp only
  rw [hload]

/-- **A call that is in order is made.** A name alone goes to the native as it is. For any other
call the slots are staged first. -/
theorem invoke_accepted {invoker : Invoker} (hs : invoker.staging.Sound)
    (dispatcher : Dispatcher S) (s : S) {arguments : List ScriptValue} {name : String}
    {signature : Signature} {values : List ScriptValue}
    (ha : Accepted (dispatcher.knows s) arguments name signature values) :
    (arguments = [.text name] ∧ signature = ⟨[]⟩ ∧ values = []
      ∧ invoker.invoke dispatcher s arguments = callBare invoker dispatcher s name) ∨
    ∃ staging', staging'.Sound
      ∧ invoker.staging.load signature.slots values 0 leading = (.ok (), staging')
      ∧ Staging.Staged signature.slots values staging'.slots
      ∧ invoker.invoke dispatcher s arguments
        = callStaged ⟨staging'⟩ dispatcher s name signature := by
  cases ha with
  | bare hne hknown =>
      refine Or.inl ⟨rfl, rfl, rfl, ?_⟩
      unfold invoke
      simp [ScriptValue.text?, hne, hknown]
  | @full name text signature values placeholders hne hknown hparse hcount hfits hrest =>
      -- the values are loaded up to the last plain slot, so no placeholder is looked at
      have hvalues : values.length = signature.argumentCount := by
        rw [← hfits.length_eq, plainSlots_length]
      obtain ⟨staging', hs', hload, _, hstaged⟩ := hs.load_staged 0 leading
        (by rw [slotCount_eq]; omega) hfits.length_eq.symm
        ((refusals?_eq_none_iff hfits.length_eq.symm).mpr hfits)
      refine Or.inr ⟨staging', hs', hload, hstaged, ?_⟩
      have hcheck : checkedSignature (.text name :: .text text :: (values ++ placeholders))
          (.text text) = .ok signature := by
        refine checkedSignature_ok hparse hcount ?_
        simp only [List.length_cons, List.length_append, leading]
        omega
      have htake : ((ScriptValue.text name :: .text text :: (values ++ placeholders)).drop
          leading).take signature.argumentCount = values := by
        show (values ++ placeholders).take signature.argumentCount = values
        rw [← hvalues, List.take_left]
      unfold invoke
      simp only [List.head?_cons, Option.bind_some, ScriptValue.text?]
      rw [if_neg (by simpa using hne), if_neg (by simp [hknown])]
      rw [← htake] at hload
      exact callWith_loaded dispatcher s hcheck hload

/-- A call with a signature is refused for the signature or for one of the values. -/
theorem callWith_refused {knows : String → Bool} {name : String} {v : ScriptValue}
    {rest : List ScriptValue} (hne : name ≠ "") (hknown : knows name = true)
    (ha : ¬ ∃ name' signature values,
      Accepted knows (.text name :: v :: rest) name' signature values) :
    ∃ e : InvokeError, e.Refusal ∧ ∀ {S : Type} (dispatcher : Dispatcher S) (s : S)
      (invoker : Invoker), invoker.staging.Sound → ∃ invoker' : Invoker, invoker'.staging.Sound
        ∧ callWith invoker dispatcher s name (.text name :: v :: rest) v
          = (.error e, invoker', s) := by
  rcases checkedSignature_cases (.text name :: v :: rest) v with
    ⟨e, he, hcheck⟩ | ⟨text, signature, rfl, hparse, hcount, hlen, hcheck⟩
  · -- nothing is staged before the signature is checked
    refine ⟨e, he, fun _ _ invoker hs => ⟨invoker, hs, ?_⟩⟩
    unfold callWith
    rw [hcheck]
  · simp only [List.length_cons, leading] at hlen
    have hvalues : (rest.take signature.argumentCount).length
        = (plainSlots signature.slots).length := by
      rw [plainSlots_length, List.length_take]
      omega
    -- the signature suits the call, so it is a matter of the values
    cases href : refusals? signature.slots (rest.take signature.argumentCount) leading with
    | some e =>
        refine ⟨e, refusals?_refusal href, fun dispatcher s invoker hs => ?_⟩
        obtain ⟨staging', hs', hload⟩ := hs.load_refused 0
          (by rw [slotCount_eq]; omega) href
        exact ⟨⟨staging'⟩, hs', callWith_unloaded dispatcher s hcheck hload⟩
    | none =>
        -- nothing is wrong with such a call
        have hacc : Accepted knows (.text name :: .text text ::
            (rest.take signature.argumentCount ++ rest.drop signature.argumentCount))
            name signature (rest.take signature.argumentCount) := by
          refine .full hne hknown hparse hcount ((refusals?_eq_none_iff hvalues).mp href) ?_
          rw [List.length_drop]
          omega
        rw [List.take_append_drop] at hacc
        exact absurd ⟨_, _, _, hacc⟩ ha

/--
**A call that is not in order is refused**, and nothing happens. The error is in the call: it is
the same for every dispatcher that knows these names and for every staging area.
-/
theorem invoke_refused {knows : String → Bool} {arguments : List ScriptValue}
    (ha : ¬ ∃ name signature values, Accepted knows arguments name signature values) :
    ∃ e : InvokeError, e.Refusal ∧ ∀ {S : Type} (dispatcher : Dispatcher S) (s : S),
      dispatcher.knows s = knows → ∀ invoker : Invoker, invoker.staging.Sound →
      ∃ invoker' : Invoker, invoker'.staging.Sound
        ∧ invoker.invoke dispatcher s arguments = (.error e, invoker', s) := by
  unfold invoke
  cases arguments with
  | nil => exact ⟨.missingName, trivial, fun _ _ _ invoker hs => ⟨invoker, hs, rfl⟩⟩
  | cons first rest =>
    cases first with
    | text name =>
      simp only [List.head?_cons, Option.bind_some, ScriptValue.text?]
      by_cases hne : name = ""
      · exact ⟨.emptyName, trivial, fun _ _ _ invoker hs =>
          ⟨invoker, hs, by rw [if_pos (by simpa using hne)]⟩⟩
      by_cases hknown : knows name = true
      swap
      · refine ⟨.unknownFunction name, trivial, fun dispatcher s hk invoker hs =>
          ⟨invoker, hs, ?_⟩⟩
        rw [if_neg (by simpa using hne), if_pos (by simp [hk, hknown])]
      cases rest with
      | nil => exact absurd ⟨name, ⟨[]⟩, [], .bare hne hknown⟩ ha
      | cons v rest =>
        obtain ⟨e, he, hcall⟩ := callWith_refused hne hknown ha
        refine ⟨e, he, fun dispatcher s hk invoker hs => ?_⟩
        obtain ⟨invoker', hs', hinvoke⟩ := hcall dispatcher s invoker hs
        refine ⟨invoker', hs', ?_⟩
        rw [if_neg (by simpa using hne), if_neg (by simp [hk, hknown])]
        exact hinvoke
    | _ => exact ⟨.missingName, trivial, fun _ _ _ invoker hs => ⟨invoker, hs, rfl⟩⟩

end Invoker

/-- The arguments that a native is called with for a signature and values, in the staging area of
an invoker. -/
def Invoker.argumentsFor (invoker : Invoker) (signature : Signature)
    (values : List ScriptValue) : List NativeArgument :=
  (invoker.staging.load signature.slots values 0 Invoker.leading).2.arguments
    signature.physicalCount

theorem callStaged_noted {S : Type} (invoker : Invoker) (dispatcher : Dispatcher S) (s : S)
    (calls : List (String × List NativeArgument)) (name : String) (signature : Signature) :
    (invoker.callStaged dispatcher.noted (s, calls) name signature).2.2.2 =
      calls ++ [(name, invoker.staging.arguments signature.physicalCount)] := by
  unfold Invoker.callStaged
  dsimp only
  split
  · rfl
  · rfl

theorem callBare_noted {S : Type} (invoker : Invoker) (dispatcher : Dispatcher S) (s : S)
    (calls : List (String × List NativeArgument)) (name : String) :
    (invoker.callBare dispatcher.noted (s, calls) name).2.2.2 = calls ++ [(name, [])] := by
  unfold Invoker.callBare
  dsimp only
  split
  · rfl
  · rfl

/-- A call that is in order asks for its native once, with arguments that depend on what the call
comes down to and on nothing else that the script said. -/
theorem invoke_noted {S : Type} {invoker : Invoker} (hs : invoker.staging.Sound)
    (dispatcher : Dispatcher S) (s : S) (calls : List (String × List NativeArgument))
    {arguments : List ScriptValue} {name : String} {signature : Signature}
    {values : List ScriptValue}
    (ha : Accepted (dispatcher.knows s) arguments name signature values) :
    (invoker.invoke dispatcher.noted (s, calls) arguments).2.2.2 =
      calls ++ [(name, invoker.argumentsFor signature values)] := by
  rcases invoker.invoke_accepted hs dispatcher.noted (s, calls) ha with
    ⟨_, rfl, rfl, hinvoke⟩ | ⟨staging', _, hload, _, hinvoke⟩
  · rw [hinvoke, callBare_noted]
    rfl
  · rw [hinvoke, callStaged_noted, Invoker.argumentsFor, hload]

/-- The arguments of a call that is in order are the ones its signature and values stand for. -/
theorem Accepted.physical {knows : String → Bool} {invoker : Invoker}
    (hs : invoker.staging.Sound) {arguments : List ScriptValue} {name : String}
    {signature : Signature} {values : List ScriptValue}
    (ha : Accepted knows arguments name signature values) :
    Physical signature.slots values (invoker.argumentsFor signature values) := by
  cases ha with
  | bare _ _ => exact .nil
  | full _ _ _ hcount hfits _ =>
      obtain ⟨staging', _, hload, _, hstaged⟩ := hs.load_staged 0
        Invoker.leading (by rw [slotCount_eq]; omega) hfits.length_eq.symm
        ((refusals?_eq_none_iff hfits.length_eq.symm).mpr hfits)
      unfold Invoker.argumentsFor
      rw [hload, ← slotCount_eq]
      exact hstaged.physical

/--
**A call is made exactly if it is in order, and once.**

If a call is in order the dispatcher is asked for it once, with the arguments that the signature
and the values stand for. They are as many as the signature has slots, and every other
call that comes down to the same name, signature and values is made with the same ones, whatever
stands in for what the native writes. If the call is not in order the dispatcher is not asked for
anything, and the error is none that a call can end with.
-/
theorem invoke_calls_iff_accepted {S : Type} {invoker : Invoker} (hs : invoker.staging.Sound)
    (dispatcher : Dispatcher S) (s : S) (arguments : List ScriptValue) :
    (∀ name signature values, Accepted (dispatcher.knows s) arguments name signature values →
      ∃ physical, (invoker.invoke dispatcher.noted (s, []) arguments).2.2.2 = [(name, physical)]
        ∧ Physical signature.slots values physical
        ∧ physical.length = signature.physicalCount
        ∧ ∀ arguments', Accepted (dispatcher.knows s) arguments' name signature values →
          (invoker.invoke dispatcher.noted (s, []) arguments').2.2.2 = [(name, physical)]) ∧
    ((¬ ∃ name signature values, Accepted (dispatcher.knows s) arguments name signature values) →
      (invoker.invoke dispatcher.noted (s, []) arguments).2.2 = (s, [])
        ∧ ∃ e, (invoker.invoke dispatcher.noted (s, []) arguments).1 = .error e ∧ e.Refusal) := by
  constructor
  · intro name signature values ha
    have hphysical := ha.physical hs
    refine ⟨invoker.argumentsFor signature values, ?_, hphysical, ?_, ?_⟩
    · exact invoke_noted hs dispatcher s [] ha
    · rw [hphysical.length, slotCount_eq]
    · exact fun arguments' ha' => invoke_noted hs dispatcher s [] ha'
  · intro ha
    obtain ⟨e, he, hcall⟩ := Invoker.invoke_refused ha
    obtain ⟨invoker', _, hinvoke⟩ := hcall dispatcher.noted (s, []) rfl invoker hs
    rw [hinvoke]
    exact ⟨rfl, e, rfl, he⟩

/-- A call with a text that the native writes, and with something in place of both written values. -/
theorem invoke_calls_iff_accepted_poke :
    let invoker : Invoker := {}
    let dispatcher : Dispatcher Unit :=
      ⟨fun _ name => name == "Poke", fun _ _ arguments => (.ok 1, arguments, ())⟩
    let arguments : List ScriptValue :=
      [.text "Poke", .text "iSI", .number (Double.ofInt 3), .null, .undefined]
    invoker.staging.Sound ∧
    ∃ physical, (invoker.invoke dispatcher.noted ((), []) arguments).2.2.2 = [("Poke", physical)]
      ∧ Physical [.int, .textRef, .intRef] [.number (Double.ofInt 3)] physical
      ∧ physical.length = 4 := by
  intro invoker dispatcher arguments
  have ha : Accepted (dispatcher.knows ()) (.text "Poke" :: .text "iSI" ::
      ([.number (Double.ofInt 3)] ++ [.null, .undefined])) "Poke" ⟨[.int, .textRef, .intRef]⟩
      [.number (Double.ofInt 3)] := by
    refine .full (by decide) (by decide) (by decide) (by decide) ?_ (Or.inr rfl)
    exact .cons ⟨_, .int _⟩ .nil
  refine ⟨Staging.sound_new, ?_⟩
  obtain ⟨physical, h1, h2, h3, _⟩ :=
    (invoke_calls_iff_accepted Staging.sound_new dispatcher () arguments).1 _ _ _ ha
  exact ⟨physical, h1, h2, h3⟩

end ScriptBridge
