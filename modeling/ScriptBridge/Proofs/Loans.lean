import ScriptBridge.Proofs.Patches

/-!
# Loans of a hooked function

A function whose code was patched is called by lending its code out and reclaiming it afterwards. A
loan does not know of others: making one writes the code that was found, and ending one writes the
jump. `LentHook` is a hook together with the code it changes and the loans that are under way, and
`Reached` are its states after any uses. What the language forbids the callers is in `Allows`: they
cannot make or undo the redirection while a loan is under way, and they end each loan once.

**Phases.** A hook in use is in one of three phases, and in each of them all of the code is known. A
redirected function has its jump and one that is lent has the code that was found, so the code follows
the last use (`Phase.act`). That is all there is: with two loans under way, the end of one of them puts
the jump in place although the other has not ended. Two hooks of one function get in each other's way
for the same reason (`first_dropped_first`).
-/

namespace ScriptBridge

/-- **What is done with a hook.** A loan is ended by its number. -/
inductive HookUse where
  | install
  | uninstall
  | lend
  | reclaim (loan : Nat)
  deriving DecidableEq

/-- **A hook in use**, with the code it changes. Loans are numbered in the order in which they were
made, and `loans` are those that are under way. -/
structure LentHook where
  hook : InlineHook
  code : CodeMemory
  loans : List Nat := []
  made : Nat := 0

namespace LentHook

/-- A hook that was not used yet. -/
def fresh (target replacement : Address) (code : CodeMemory) : LentHook :=
  { hook := { target, replacement }, code }

/-- **What may be done.** While a loan is under way the redirection is neither made nor undone, and only
a loan that is under way ends. -/
def Allows (s : LentHook) : HookUse → Prop
  | .install => s.loans = []
  | .uninstall => s.loans = []
  | .lend => True
  | .reclaim loan => loan ∈ s.loans

instance (s : LentHook) : DecidablePred s.Allows
  | .install => inferInstanceAs (Decidable (s.loans = []))
  | .uninstall => inferInstanceAs (Decidable (s.loans = []))
  | .lend => inferInstanceAs (Decidable True)
  | .reclaim loan => inferInstanceAs (Decidable (loan ∈ s.loans))

/-- **What a use does**, and whether it fails. -/
def act (s : LentHook) : HookUse → Except HookError Unit × LentHook
  | .install =>
    match s.hook.install s.code with
    | .ok (hook, code) => (.ok (), { s with hook, code })
    | .error e => (.error e, s)
  | .uninstall =>
    match s.hook.uninstall s.code with
    | .ok (hook, code) => (.ok (), { s with hook, code })
    | .error e => (.error e, s)
  | .lend =>
    match s.hook.lend s.code with
    | .ok code => (.ok (), { s with code, loans := s.made :: s.loans, made := s.made + 1 })
    | .error e => (.error e, s)
  | .reclaim loan =>
    (.ok (), { s with code := s.hook.reclaim s.code, loans := s.loans.erase loan })

/-- **The states after uses**, from a state on. -/
inductive Reached (start : LentHook) : List HookUse → LentHook → Prop where
  | start : Reached start [] start
  | act {uses : List HookUse} {s : LentHook} (use : HookUse) :
      Reached start uses s → s.Allows use → Reached start (uses ++ [use]) (s.act use).2

/-! ## Phases -/

/-- The hook of a function once it is installed. -/
def installedHook (target replacement : Address) (code : CodeMemory) : InlineHook :=
  { target, replacement
    patch := some ⟨code.read target Jump.length, Jump.absolute replacement⟩ }

/-- **The phases of a hook**, with the use that came last. `code` is what was there in the beginning. -/
inductive Phase (target replacement : Address) (code : CodeMemory) :
    Option HookUse → LentHook → Prop where
  | bare {last : Option HookUse} {made : Nat} :
      Phase target replacement code last ⟨{ target, replacement }, code, [], made⟩
  | redirected {last : Option HookUse} {loans : List Nat} {made : Nat} :
      (loans ≠ [] → ∃ loan, last = some (.reclaim loan)) →
      Phase target replacement code last
        ⟨installedHook target replacement code, code.write target (Jump.absolute replacement), loans, made⟩
  | lent {loans : List Nat} {made : Nat} : loans ≠ [] →
      Phase target replacement code (some .lend)
        ⟨installedHook target replacement code, code, loans, made⟩

variable {target replacement : Address} {code : CodeMemory} {s : LentHook} {uses : List HookUse}
  {last : Option HookUse} {loans : List Nat} {made : Nat}

/-- What was found is put back over the jump. -/
theorem write_found_jump :
    (code.write target (Jump.absolute replacement)).write target (code.read target Jump.length) = code := by
  rw [CodeMemory.write_write (by rw [CodeMemory.length_read, Jump.length_absolute]),
    CodeMemory.write_read]

theorem write_jump_jump :
    (code.write target (Jump.absolute replacement)).write target (Jump.absolute replacement) =
      code.write target (Jump.absolute replacement) :=
  CodeMemory.write_write rfl

theorem unprotect_error {e : HookError} {count : Nat} (h : code.unprotect target count = .error e) :
    ∃ page reason, e = .protection page reason := by
  unfold CodeMemory.unprotect at h
  dsimp only at h
  split at h
  · exact absurd h (by simp)
  · exact ⟨_, _, (Except.error.inj h).symm⟩

/-- A hook that is not installed is installed, unless the code cannot be made writable. -/
theorem act_install_bare :
    act ⟨{ target, replacement }, code, loans, made⟩ .install =
      match code.unprotect target Jump.length with
      | .ok _ => (.ok (), ⟨installedHook target replacement code,
          code.write target (Jump.absolute replacement), loans, made⟩)
      | .error e => (.error e, ⟨{ target, replacement }, code, loans, made⟩) := by
  simp only [act, InlineHook.install, InlineHook.isInstalled, Jump.length_absolute]
  cases code.unprotect target Jump.length <;> rfl

section

variable {current : CodeMemory}

theorem act_install_installed :
    act ⟨installedHook target replacement code, current, loans, made⟩ .install =
      (.error .alreadyInstalled, ⟨installedHook target replacement code, current, loans, made⟩) := rfl

theorem act_uninstall_installed :
    act ⟨installedHook target replacement code, current, loans, made⟩ .uninstall =
      (.ok (), ⟨{ target, replacement }, current.write target (code.read target Jump.length),
        loans, made⟩) := rfl

theorem act_lend_installed :
    act ⟨installedHook target replacement code, current, loans, made⟩ .lend =
      (.ok (), ⟨installedHook target replacement code,
        current.write target (code.read target Jump.length), made :: loans, made + 1⟩) := rfl

theorem act_reclaim_installed (loan : Nat) :
    act ⟨installedHook target replacement code, current, loans, made⟩ (.reclaim loan) =
      (.ok (), ⟨installedHook target replacement code,
        current.write target (Jump.absolute replacement), loans.erase loan, made⟩) := rfl

end

/-- **One use leads from phase to phase.** -/
theorem Phase.act (h : Phase target replacement code last s) {use : HookUse} (hallows : s.Allows use) :
    Phase target replacement code (some use) (s.act use).2 := by
  cases h with
  | bare =>
      cases use with
      | install =>
          rw [act_install_bare]
          cases code.unprotect target Jump.length with
          | error e => exact .bare
          | ok _ => exact .redirected fun hnone => absurd rfl hnone
      | uninstall => exact .bare
      | lend => exact .bare
      | reclaim loan => exact absurd hallows List.not_mem_nil
  | redirected _ =>
      cases use with
      | install => exact .redirected fun hloans => absurd hallows hloans
      | uninstall =>
          obtain rfl := hallows
          rw [act_uninstall_installed, write_found_jump]
          exact .bare
      | lend =>
          rw [act_lend_installed, write_found_jump]
          exact .lent (List.cons_ne_nil _ _)
      | reclaim loan =>
          rw [act_reclaim_installed, write_jump_jump]
          exact .redirected fun _ => ⟨loan, rfl⟩
  | lent hloans =>
      cases use with
      | install => exact absurd hallows hloans
      | uninstall => exact absurd hallows hloans
      | lend =>
          rw [act_lend_installed, CodeMemory.write_read]
          exact .lent (List.cons_ne_nil _ _)
      | reclaim loan => exact .redirected fun _ => ⟨loan, rfl⟩

/-- **After any uses a hook is in one of its phases.** -/
theorem Reached.phase (h : Reached (fresh target replacement code) uses s) :
    Phase target replacement code uses.getLast? s := by
  induction h with
  | start => exact .bare
  | act use _ hallows ih =>
      rw [List.getLast?_concat]
      exact ih.act hallows

/-- If loans are left when one ends, others were under way beside it. -/
theorem Reached.reclaimed (h : Reached (fresh target replacement code) uses s) {loan : Nat}
    (hlast : uses.getLast? = some (.reclaim loan)) (hloans : s.loans ≠ []) :
    ∃ earlier before, uses = earlier ++ [.reclaim loan]
      ∧ Reached (fresh target replacement code) earlier before ∧ 2 ≤ before.loans.length := by
  cases h with
  | start => exact absurd hlast (by simp)
  | @act earlier before use hbefore hallows =>
      rw [List.getLast?_concat] at hlast
      obtain rfl := Option.some.inj hlast
      have hlength : (before.loans.erase loan).length = before.loans.length - 1 :=
        List.length_erase_of_mem hallows
      have hleft : 0 < (before.loans.erase loan).length := List.length_pos_iff.mpr hloans
      exact ⟨earlier, before, rfl, hbefore, by omega⟩

/-! ## What the code is -/

theorem read_jump :
    (code.write target (Jump.absolute replacement)).read target Jump.length = Jump.absolute replacement :=
  CodeMemory.read_write Jump.length_absolute (by decide)

/-- Only the bytes of the jump are ever written. -/
theorem Phase.byteAt_outside (h : Phase target replacement code last s) {address : Address}
    (houtside : ¬ (address - target).toNat < Jump.length) :
    s.code.byteAt address = code.byteAt address := by
  cases h with
  | bare => rfl
  | redirected _ => exact CodeMemory.byteAt_write_outside houtside
  | lent _ => rfl

/-- Without a redirection no loan is under way and everything is as it was found. -/
theorem Phase.eq_bare (h : Phase target replacement code last s) (hbare : s.hook.isInstalled = false) :
    ∃ made, s = ⟨{ target, replacement }, code, [], made⟩ := by
  cases h with
  | bare => exact ⟨_, rfl⟩
  | redirected _ => exact (Bool.false_ne_true hbare.symm).elim
  | lent _ => exact (Bool.false_ne_true hbare.symm).elim

/-- With one the hook holds what was found in the beginning, whatever the code is now. -/
theorem Phase.eq_installed (h : Phase target replacement code last s)
    (hinstalled : s.hook.isInstalled = true) :
    ∃ current loans made, s = ⟨installedHook target replacement code, current, loans, made⟩ := by
  cases h with
  | bare => exact (Bool.false_ne_true hinstalled).elim
  | redirected _ => exact ⟨_, _, _, rfl⟩
  | lent _ => exact ⟨_, _, _, rfl⟩

theorem Phase.read_redirected (h : Phase target replacement code last s)
    (hinstalled : s.hook.isInstalled = true) (hnone : s.loans = []) :
    s.code.read target Jump.length = Jump.absolute replacement := by
  cases h with
  | bare => exact (Bool.false_ne_true hinstalled).elim
  | redirected _ => exact read_jump
  | lent hloans => exact absurd hnone hloans

theorem Phase.dropped (h : Phase target replacement code last s) : s.hook.dropped s.code = code := by
  cases h with
  | bare => rfl
  | redirected _ => exact write_found_jump
  | lent _ => exact CodeMemory.write_read

/-- With loans under way the last use decides, and it was one of two. -/
theorem Reached.last_use (h : Reached (fresh target replacement code) uses s) (hloans : s.loans ≠ []) :
    (uses.getLast? = some .lend ∧ s.code.read target Jump.length = code.read target Jump.length)
      ∨ ∃ earlier before loan, uses = earlier ++ [.reclaim loan]
        ∧ Reached (fresh target replacement code) earlier before ∧ 2 ≤ before.loans.length
        ∧ s.code.read target Jump.length = Jump.absolute replacement := by
  have hphase := h.phase
  generalize hlast : uses.getLast? = last at hphase
  cases hphase with
  | bare => exact absurd rfl hloans
  | redirected hreclaimed =>
      obtain ⟨loan, rfl⟩ := hreclaimed hloans
      obtain ⟨earlier, before, huses, hbefore, htwo⟩ := h.reclaimed hlast hloans
      exact Or.inr ⟨earlier, before, loan, huses, hbefore, htwo, read_jump⟩
  | lent _ => exact Or.inl ⟨rfl, rfl⟩

/--
**The code of a hooked function follows the last use of its hook.** Without a redirection it is what was
found in the beginning. With one it is the jump while no loan is under way. While loans are
under way it is what was found if the last use was to lend it, and the jump if one of several loans
was ended last: the others then have lost the code that they were made for.

No byte outside of the jump ever changes, what fails changes nothing, and when the hook is dropped all
the code is as it was in the beginning.
-/
theorem code_follows_last_use (h : Reached (fresh target replacement code) uses s) :
    (∀ address : Address, ¬ (address - target).toNat < Jump.length →
        s.code.byteAt address = code.byteAt address)
      ∧ (s.hook.isInstalled = false →
        s.loans = [] ∧ s.code.read target Jump.length = code.read target Jump.length)
      ∧ (s.hook.isInstalled = true → s.loans = [] →
        s.code.read target Jump.length = Jump.absolute replacement)
      ∧ (s.loans ≠ [] →
        (uses.getLast? = some .lend ∧ s.code.read target Jump.length = code.read target Jump.length)
          ∨ ∃ earlier before loan, uses = earlier ++ [.reclaim loan]
            ∧ Reached (fresh target replacement code) earlier before ∧ 2 ≤ before.loans.length
            ∧ s.code.read target Jump.length = Jump.absolute replacement)
      ∧ (s.hook.isInstalled = true →
        s.act .install = (.error .alreadyInstalled, s)
          ∧ (s.act .uninstall).1 = .ok () ∧ (s.act .lend).1 = .ok ())
      ∧ (s.hook.isInstalled = false →
        s.act .uninstall = (.error .notInstalled, s) ∧ s.act .lend = (.error .notInstalled, s)
          ∧ (((s.act .install).1 = .ok () ∧ (s.act .install).2.hook.isInstalled = true)
            ∨ ∃ page reason, s.act .install = (.error (.protection page reason), s)))
      ∧ s.hook.dropped s.code = code := by
  have hphase := h.phase
  refine ⟨fun _ => hphase.byteAt_outside, fun hbare => ?_, hphase.read_redirected, h.last_use,
    fun hinstalled => ?_, fun hbare => ?_, hphase.dropped⟩
  · obtain ⟨made, rfl⟩ := hphase.eq_bare hbare
    exact ⟨rfl, rfl⟩
  · obtain ⟨current, loans, made, rfl⟩ := hphase.eq_installed hinstalled
    exact ⟨act_install_installed, rfl, rfl⟩
  · obtain ⟨made, rfl⟩ := hphase.eq_bare hbare
    refine ⟨rfl, rfl, ?_⟩
    rw [act_install_bare]
    cases hwritable : code.unprotect target Jump.length with
    | ok _ => exact Or.inl ⟨rfl, rfl⟩
    | error e =>
        obtain ⟨page, reason, rfl⟩ := unprotect_error hwritable
        exact Or.inr ⟨page, reason, rfl⟩

/-- The first of two loans goes on when the second has ended, and the code is gone. -/
theorem code_follows_last_use_overlapping :
    ∃ s, Reached (fresh 0x1000 0x2000 (.blank true)) [.install, .lend, .lend, .reclaim 1] s
      ∧ s.loans = [0] ∧ s.code.read 0x1000 Jump.length = Jump.absolute 0x2000
      ∧ s.hook.dropped s.code = .blank true := by
  have hstart : Reached (fresh 0x1000 0x2000 (.blank true)) [] _ := .start
  have hreached := (((hstart.act .install (by decide)).act .lend (by decide)).act .lend (by decide)).act
    (.reclaim 1) (by decide)
  obtain ⟨_, _, _, hloans, _, _, hdropped⟩ := code_follows_last_use hreached
  rcases hloans (by decide) with ⟨hlast, _⟩ | ⟨_, _, _, _, _, _, hjump⟩
  · exact absurd hlast (by decide)
  · exact ⟨_, hreached, rfl, hjump, hdropped⟩

/-- **A loan can be without its code.** Of two loans the first one ends, and the bytes of the function are
no longer those that were found, although the second one is still under way. -/
theorem loan_loses_its_code :
    ∃ s, Reached (fresh 0x1000 0x2000 (.blank true)) [.install, .lend, .lend, .reclaim 0] s
      ∧ s.loans = [1]
      ∧ s.code.read 0x1000 Jump.length ≠ (CodeMemory.blank true).read 0x1000 Jump.length := by
  have hstart : Reached (fresh 0x1000 0x2000 (.blank true)) [] _ := .start
  have hreached := (((hstart.act .install (by decide)).act .lend (by decide)).act .lend (by decide)).act
    (.reclaim 0) (by decide)
  exact ⟨_, hreached, rfl, by decide⟩

/-! ## Two hooks of one function -/

/-- **Hooks do not know of each other either.** A second hook of a function finds the jump of the first.
If the first is dropped first, the second is installed without its jump, and when it is dropped as well
the jump of the first is back for good. -/
theorem first_dropped_first (other : Address) :
    (installedHook target replacement code).dropped
        ((code.write target (Jump.absolute replacement)).write target (Jump.absolute other)) = code
      ∧ (installedHook target other (code.write target (Jump.absolute replacement))).dropped code =
        code.write target (Jump.absolute replacement) := by
  have hlength : (Jump.absolute replacement).length = (Jump.absolute other).length := by
    rw [Jump.length_absolute, Jump.length_absolute]
  constructor
  · rw [CodeMemory.write_write hlength]
    exact write_found_jump
  · show code.write target ((code.write target (Jump.absolute replacement)).read target Jump.length) = _
    rw [read_jump]

end LentHook

end ScriptBridge
