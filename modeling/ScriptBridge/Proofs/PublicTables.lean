import Mathlib.Algebra.GroupWithZero.Nat
import ScriptBridge.Proofs.Dispatch
import ScriptBridge.Proofs.NameBytes

/-!
# Names by their index

A program is asked once for the names of its public functions, and from then on its functions are
known by their places alone. One name too few, and every function behind it would be taken for
another.

**Tables.** The names of an image lie in one of two layouts. `Image.NameTable` and
`Image.InlineTable` say for a list of names that an image holds them, in terms of its bytes. In both
every name starts where `Image.nameOffset` looks for it, so what is read of the table is the list,
with an empty text in the place of a name that is too long.

**Executions.** An empty text is no name of a callback, since a declaration has one, and a text of
plain characters is read off its own bytes alone. So an index of the table leads to the callback
that is declared under the name in its place, and to nothing if there is none.
-/

namespace ScriptBridge

/-! ## Names in an image -/

namespace Image

variable {image : Image} {names : List (List UInt8)}

/-- The bytes from an offset on. -/
def bytesFrom (image : Image) : Int → Nat → List UInt8
  | _, 0 => []
  | offset, count + 1 => image.byteAt offset :: bytesFrom image (offset + 1) count

/-- **A name lies at an offset**: it holds no zero, and one stands behind it. -/
structure NameAt (image : Image) (offset : Int) (name : List UInt8) : Prop where
  plain : 0 ∉ name
  ended : image.bytesFrom offset (name.length + 1) = name ++ [0]

instance {offset : Int} {name : List UInt8} : Decidable (image.NameAt offset name) :=
  decidable_of_iff (0 ∉ name ∧ image.bytesFrom offset (name.length + 1) = name ++ [0])
    ⟨fun h => ⟨h.1, h.2⟩, fun h => ⟨h.1, h.2⟩⟩

/-- **A name table**: entries of eight bytes, the second word of which is the offset of a name. -/
structure NameTable (image : Image) (names : List (List UInt8)) : Prop where
  entry : image.entrySize = 8
  ends : image.natives = image.publics + names.length * 8
  named : ∀ place : Fin names.length,
    image.NameAt (image.wordAt (image.publics + place * 8 + 4)).toNat (names.get place)

/-- **A table with names in its entries**, which are of 24 bytes. -/
structure InlineTable (image : Image) (names : List (List UInt8)) : Prop where
  entry : image.entrySize = 24
  ends : image.natives = image.publics + names.length * 24
  named : ∀ place : Fin names.length,
    (names.get place).length ≤ 19 ∧ image.NameAt (image.publics + place * 24 + 4) (names.get place)

/-- **The names of the public functions of an image**, in either layout. -/
def LaidOut (image : Image) (names : List (List UInt8)) : Prop :=
  image.NameTable names ∨ image.InlineTable names

/-- What is read of a name. -/
def readName (name : List UInt8) : String :=
  if name.length ≤ 31 then Utf8.lossy name else ""

/-- A name is found if its end comes within the limit. -/
theorem boundedBytes?_eq :
    ∀ {name : List UInt8} {offset : Int} (limit : Nat), image.NameAt offset name →
      image.boundedBytes? limit offset = if name.length < limit then some name else none
  | _, _, 0, _ => by simp [boundedBytes?]
  | [], offset, limit + 1, h => by
      have hbyte : image.byteAt offset = 0 := by simpa [bytesFrom] using h.ended
      simp [boundedBytes?, hbyte]
  | b :: name, offset, limit + 1, h => by
      obtain ⟨hbyte, hrest⟩ := List.cons.inj h.ended
      have hzero : b ≠ 0 := fun hb => h.plain (hb ▸ List.mem_cons_self)
      have ih := boundedBytes?_eq limit ⟨fun hmem => h.plain (List.mem_cons_of_mem _ hmem), hrest⟩
      unfold boundedBytes?
      rw [hbyte, if_neg hzero, ih]
      by_cases hlength : name.length < limit
      · rw [if_pos hlength, if_pos (by simpa using hlength)]
        rfl
      · rw [if_neg hlength, if_neg (by simpa using hlength)]
        rfl

theorem count_eq {size : Int} (hpos : 0 < size) (hentry : image.entrySize = size)
    (hends : image.natives = image.publics + names.length * size) :
    image.publicCount = names.length := by
  have hnonneg : 0 ≤ (names.length : Int) * size := Int.mul_nonneg (by omega) (by omega)
  have hbytes : image.natives - image.publics = names.length * size := by omega
  unfold publicCount
  rw [hbytes, hentry, if_pos ⟨hpos, by omega⟩, Int.mul_ediv_cancel _ (by omega), Int.toNat_natCast]

/-- **Every entry counts.** -/
theorem LaidOut.publicCount_eq (h : image.LaidOut names) : image.publicCount = names.length := by
  rcases h with h | h
  · exact count_eq (by decide) h.entry h.ends
  · exact count_eq (by decide) h.entry h.ends

/-- In both layouts a name starts where it is looked for. -/
theorem LaidOut.nameAt (h : image.LaidOut names) (place : Fin names.length) :
    image.NameAt (image.nameOffset (image.publics + place * image.entrySize)) (names.get place) := by
  unfold nameOffset
  rcases h with h | h
  · rw [h.entry]
    exact h.named place
  · rw [h.entry]
    exact (h.named place).2

/-- A name is read, unless it is too long. -/
theorem LaidOut.publicName?_eq (h : image.LaidOut names) (place : Fin names.length) :
    (image.publicName? place).getD "" = readName (names.get place) := by
  have hname := boundedBytes?_eq nameLimit (h.nameAt place)
  unfold publicName? readName
  rw [h.publicCount_eq, if_pos place.isLt]
  dsimp only
  rw [hname]
  by_cases hlength : (names.get place).length ≤ 31
  · rw [if_pos (show _ < nameLimit from Nat.lt_succ_of_le hlength), if_pos hlength]
    rfl
  · rw [if_neg (show ¬ _ < nameLimit from fun hlt => hlength (Nat.le_of_lt_succ hlt)),
      if_neg hlength]
    rfl

/-- **What is read of a table is its names**, each in its place. -/
theorem LaidOut.publicNames_eq (h : image.LaidOut names) :
    image.publicNames = names.map readName := by
  unfold publicNames
  rw [h.publicCount_eq]
  refine List.ext_getElem (by simp) fun place hplace _ => ?_
  simp only [List.getElem_map, List.getElem_range]
  exact h.publicName?_eq ⟨place, by simpa using hplace⟩

/-- Two names in their entries, the second of which fills what it may. -/
example :
    let names := [Utf8.encode "OnGameModeInit", Utf8.encode "OnPlayerEnterRaceCP"]
    (withInlineNames names).InlineTable names :=
  ⟨by decide +kernel, by decide +kernel, by decide +kernel⟩

theorem readName_encode {text : String} (h : (Utf8.encode text).length ≤ 31) :
    readName (Utf8.encode text) = text := by
  rw [readName, if_pos h, Utf8.lossy_encode]

/-- There are fewer names than indices that are not negative. -/
theorem LaidOut.length_lt (h : image.LaidOut names) : names.length < 2 ^ 31 := by
  have hpublics : -2 ^ 31 ≤ image.publics := Int32.le_toInt _
  have hnatives : image.natives < 2 ^ 31 := Int32.toInt_lt _
  rcases h with h | h
  · have hends := h.ends
    omega
  · have hends := h.ends
    omega

end Image

/-! ## Names that are declared -/

/-- **A declaration has a name.** -/
theorem Declaration.parse_name_ne {line : List Char} {callback : Callback}
    (h : Declaration.parse line = .ok callback) : callback.name ≠ "" := by
  unfold Declaration.parse at h
  split at h
  · exact absurd h (by simp)
  split at h
  · exact absurd h (by simp)
  split at h
  · exact absurd h (by simp)
  rename_i name rest _
  dsimp only at h
  split at h
  · exact absurd h (by simp)
  rename_i hname
  split at h
  · exact absurd h (by simp)
  split at h
  · exact absurd h (by simp)
  obtain rfl := Except.ok.inj h
  intro hempty
  have htoList := congrArg String.toList hempty
  rw [String.toList_ofList] at htoList
  rw [htoList] at hname
  exact hname rfl

namespace CallbackTable

/-- The callbacks of a table have names. -/
def Named (table : CallbackTable) : Prop := ∀ callback ∈ table.callbacks, callback.name ≠ ""

theorem Named.addLines {table added : CallbackTable} {lines : List (Nat × List Char)}
    (hnamed : table.Named) (h : addLines table lines = .ok added) : added.Named := by
  induction lines generalizing table with
  | nil =>
      rw [← Except.ok.inj h]
      exact hnamed
  | cons line lines ih =>
      unfold CallbackTable.addLines at h
      split at h
      · exact absurd h (by simp)
      rename_i callback hcallback
      split at h
      · exact absurd h (by simp)
      rename_i longer hlonger
      refine ih ?_ h
      unfold insert? at hlonger
      split at hlonger
      · exact absurd hlonger (by simp)
      obtain rfl := Option.some.inj hlonger
      exact List.forall_mem_append.mpr
        ⟨hnamed, List.forall_mem_singleton.mpr (Declaration.parse_name_ne hcallback)⟩

/-- **No callback of a file has an empty name.** -/
theorem position?_empty {file : String} {table : CallbackTable} (h : parse file = .ok table) :
    table.position? "" = none := by
  have hnone : empty.Named := fun callback hcallback => absurd hcallback List.not_mem_nil
  have hnamed : table.Named := hnone.addLines h
  refine List.findIdx?_eq_none_iff.mpr fun callback hcallback => ?_
  exact beq_eq_false_iff_ne.mpr (hnamed callback hcallback)

end CallbackTable

namespace Interceptor

/-- The index of a place is that of no other, and not the one of the entry point. -/
theorem ofSize_ne_entryPoint {place : Nat} (h : place < 2 ^ 31) : Cell.ofSize place ≠ entryPoint := by
  intro heq
  have hlast : Cell.ofSize place = Cell.ofSize (2 ^ 32 - 1) := heq
  have hplace : place = 2 ^ 32 - 1 :=
    Cell.ofSize_injective (Nat.lt_trans h (by decide)) (by decide) hlast
  omega

variable {D : Type} {i : Interceptor} {callbacks : CallbackTable} {names : List String}
  {program : Program} {place : Nat} {name : String}

/-- The callback at the index of a place is the one with the name in that place. -/
theorem callbackAt?_of_name (hcaches : Caches callbacks names i) (htable : i.callbacks = callbacks)
    (hlength : names.length < UInt32.size) (hname : names[place]? = some name)
    (hother : name ≠ playerUpdateName) : i.callbackAt? (Cell.ofSize place) = callbacks.find? name := by
  have hlt : place < names.length := (List.getElem?_eq_some_iff.mp hname).1
  have hexact : ∀ position, i.intercepted.lookup (Cell.ofSize place) = some position ↔
      callbacks.position? name = some position := by
    intro position
    rw [hcaches.exact (Nat.le_of_lt hlength)]
    constructor
    · rintro ⟨other, found, hfound, hindex, _, hposition⟩
      have hbound : other < names.length := (List.getElem?_eq_some_iff.mp hfound).1
      obtain rfl : other = place := Cell.ofSize_injective (by omega) (by omega) hindex
      obtain rfl : name = found := Option.some.inj (hname.symm.trans hfound)
      exact hposition
    · intro hposition
      exact ⟨place, name, hname, rfl, hother, hposition⟩
  unfold callbackAt? CallbackTable.find?
  rw [htable, Option.ext hexact]

/-- Where the name that is recognised stands but once, its place has the index that is kept. -/
theorem playerUpdate_iff (hcaches : Caches callbacks names i) (hlength : names.length < UInt32.size)
    (hname : names[place]? = some name)
    (honce : ∀ other, names[other]? = some playerUpdateName → name = playerUpdateName →
      other = place) :
    i.playerUpdate = some (Cell.ofSize place) ↔ name = playerUpdateName := by
  have hlt : place < names.length := (List.getElem?_eq_some_iff.mp hname).1
  rw [hcaches.update]
  constructor
  · rintro ⟨other, hother, hindex, _⟩
    have hbound : other < names.length := (List.getElem?_eq_some_iff.mp hother).1
    obtain rfl : other = place := Cell.ofSize_injective (by omega) (by omega) hindex
    exact Option.some.inj (hname.symm.trans hother)
  · rintro rfl
    refine ⟨place, hname, rfl, fun later hlater hagain => ?_⟩
    have hsame := honce later hagain rfl
    omega

end Interceptor

/-- What is recognised by its name is recognised by its bytes. -/
theorem Image.readName_eq_playerUpdateName_iff {name : List UInt8} :
    readName name = Interceptor.playerUpdateName ↔
      name = Utf8.encode Interceptor.playerUpdateName := by
  have hplain : ∀ c ∈ Interceptor.playerUpdateName.toList, 0 < c.toNat ∧ c.toNat < 0x80 := by
    simp [Interceptor.playerUpdateName]
  constructor
  · intro h
    unfold readName at h
    split at h
    · exact Utf8.eq_encode_of_lossy_eq hplain h
    · exact absurd h (by decide)
  · rintro rfl
    exact readName_encode (by decide +kernel)

/--
**Every index of a table of names leads to the name in its place.** An image holds a list of names,
in either layout. Then there are as many public functions as names, and what a program with this
image says of its names is the list, each name in its place: as it was written if it is a text, and
an empty text if it is too long.

The callbacks are those of a file, the names are all different, and the program was announced and
has not ended since. Then an execution of the function in some place reports the player if the name
there is the one that is recognised, is offered as the callback that is declared under this name if
there is one, and is forwarded without a word if there is none or the name was too long.
-/
theorem public_functions_keep_their_index (m : Machine) (id : ProgramId) (image : Image)
    (names : List (List UInt8)) (himage : m.image = some image) (hlaid : image.LaidOut names) :
    image.publicCount = names.length
      ∧ (m.program id).publicNames.length = names.length
      ∧ (∀ (place : Nat) (name : List UInt8), names[place]? = some name →
        (name.length ≤ 31 → (m.program id).publicNames[place]? = some (Utf8.lossy name))
          ∧ (31 < name.length → (m.program id).publicNames[place]? = some "")
          ∧ ∀ text, name = Utf8.encode text → Utf8.lossy name = text)
      ∧ ∀ (file : String) (table : CallbackTable), CallbackTable.parse file = .ok table →
        names.Nodup →
        ∀ {D : Type} (actions : List (InterceptorAction D)) (d : D),
          let r := (InterceptorRun.start table d).run actions
          FollowedSince r.history (m.program id) →
          ∀ (place : Nat) (name : List UInt8) (program : Program) (delegate : Delegate D),
            names[place]? = some name → program.id = id →
            let i := r.interceptor
            let outcome := i.onExecute program (Cell.ofSize place) delegate r.world
            (name = Utf8.encode Interceptor.playerUpdateName →
                outcome = (.forward, i,
                  ((program.argument? 0).map (delegate.playerUpdate · r.world)).getD r.world))
              ∧ (name ≠ Utf8.encode Interceptor.playerUpdateName → name.length ≤ 31 →
                ∀ callback, table.find? (Utf8.lossy name) = some callback →
                  outcome = i.offer program callback delegate r.world)
              ∧ (name ≠ Utf8.encode Interceptor.playerUpdateName →
                31 < name.length ∨ table.find? (Utf8.lossy name) = none →
                  outcome = (.forward, i, r.world)) := by
  have hnames : (m.program id).publicNames = names.map Image.readName := by
    show m.publicNames = _
    unfold Machine.publicNames
    rw [himage]
    exact hlaid.publicNames_eq
  have hread : ∀ (place : Nat) (name : List UInt8), names[place]? = some name →
      (m.program id).publicNames[place]? = some (Image.readName name) := by
    intro place name hname
    rw [hnames, List.getElem?_map, hname]
    rfl
  refine ⟨hlaid.publicCount_eq, by rw [hnames, List.length_map], fun place name hname => ?_, ?_⟩
  · rw [hread place name hname]
    unfold Image.readName
    refine ⟨fun hshort => by rw [if_pos hshort], fun hlong => by rw [if_neg (by omega)], ?_⟩
    rintro text rfl
    exact Utf8.lossy_encode text
  · intro file table hparse hnodup D actions d r hsince place name program delegate hname hid i outcome
    have htracked : r.Tracked table :=
      InterceptorRun.run_tracked actions (InterceptorRun.tracked_start table d)
    have hcaches := htracked.caches _ hsince
    have hlength := m.publicNames_length_lt id
    have hlt : place < names.length := (List.getElem?_eq_some_iff.mp hname).1
    have hwatches : i.Watches program (Cell.ofSize place) :=
      ⟨htracked.installed, Interceptor.ofSize_ne_entryPoint (Nat.lt_trans hlt hlaid.length_lt),
        hid ▸ (htracked.followed id).mpr ⟨_, hsince, rfl⟩⟩
    have hupdate : i.playerUpdate = some (Cell.ofSize place) ↔
        name = Utf8.encode Interceptor.playerUpdateName := by
      rw [Interceptor.playerUpdate_iff hcaches hlength (hread place name hname) ?_,
        Image.readName_eq_playerUpdateName_iff]
      -- a name that reads like the one that is recognised is the same name
      intro other hother hhere
      rw [hnames, List.getElem?_map] at hother
      obtain ⟨found, hfound, hrecognised⟩ := Option.map_eq_some_iff.mp hother
      rw [Image.readName_eq_playerUpdateName_iff] at hhere hrecognised
      refine (List.getElem?_inj (List.getElem?_eq_some_iff.mp hfound).1 hnodup).mp ?_
      rw [hfound, hname, hhere, hrecognised]
    have hcallback (hother : name ≠ Utf8.encode Interceptor.playerUpdateName) :
        i.callbackAt? (Cell.ofSize place) = table.find? (Image.readName name) :=
      Interceptor.callbackAt?_of_name hcaches htracked.table hlength (hread place name hname)
        (mt Image.readName_eq_playerUpdateName_iff.mp hother)
    refine ⟨fun hrecognised => ?_, fun hother hshort callback hdeclared => ?_,
      fun hother hnone => ?_⟩
    · exact Interceptor.onExecute_update delegate r.world hwatches (hupdate.mpr hrecognised)
    · refine Interceptor.onExecute_offer delegate r.world hwatches (mt hupdate.mp hother) ?_
      rw [hcallback hother, Image.readName, if_pos hshort, hdeclared]
    · refine Interceptor.onExecute_unknown delegate r.world hwatches (mt hupdate.mp hother) ?_
      rw [hcallback hother]
      unfold Image.readName
      by_cases hshort : name.length ≤ 31
      · rw [if_pos hshort]
        exact hnone.resolve_left (by omega)
      · rw [if_neg hshort, CallbackTable.find?, CallbackTable.position?_empty hparse]
        rfl

/-- A name of 32 bytes stands between two others: it is read as none, and the function behind it is
still offered as what it is. -/
theorem public_functions_keep_their_index_long_name :
    let names := [Utf8.encode "OnPlayerUpdate", List.replicate 32 65, Utf8.encode "OnTest"]
    let m : Machine := { image := some (Image.withNameTable names) }
    let table : CallbackTable := ⟨[{ name := "OnTest", cancelable := true }]⟩
    let r := (InterceptorRun.start table ()).run
      [.execute (m.program 3) Interceptor.entryPoint .no]
    (m.image = some (Image.withNameTable names) ∧ (Image.withNameTable names).LaidOut names
        ∧ CallbackTable.parse "[Cancelable] forward OnTest();" = .ok table ∧ names.Nodup
        ∧ FollowedSince r.history (m.program 3))
      ∧ (m.program 3).publicNames[1]? = some ""
      ∧ (m.program 3).publicNames[2]? = some (Utf8.lossy (Utf8.encode "OnTest"))
      ∧ r.interceptor.onExecute (m.program 3) 2 .no () =
        r.interceptor.offer (m.program 3) { name := "OnTest", cancelable := true } .no () := by
  intro names m table r
  have hlaid : (Image.withNameTable names).LaidOut names :=
    .inl ⟨by decide +kernel, by decide +kernel, by decide +kernel⟩
  have hparse : CallbackTable.parse "[Cancelable] forward OnTest();" = .ok table := by rfl
  have hnodup : names.Nodup := by decide +kernel
  have hsince : FollowedSince r.history (m.program 3) :=
    ⟨[], [], _, rfl, fun _ hmem => absurd hmem List.not_mem_nil⟩
  obtain ⟨_, _, hnames, hexecuted⟩ :=
    public_functions_keep_their_index m 3 (Image.withNameTable names) names rfl hlaid
  have hlast : names[2]? = some (Utf8.encode "OnTest") := rfl
  refine ⟨⟨rfl, hlaid, hparse, hnodup, hsince⟩, (hnames 1 _ rfl).2.1 (by decide),
    (hnames 2 _ hlast).1 (by decide +kernel), ?_⟩
  refine (hexecuted _ table hparse hnodup [.execute (m.program 3) Interceptor.entryPoint .no] ()
    hsince 2 _ (m.program 3) .no hlast rfl).2.1 (by decide +kernel) (by decide +kernel) _ ?_
  rw [(hnames 2 _ hlast).2.2 _ rfl]
  rfl

end ScriptBridge
