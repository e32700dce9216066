import NativeInitLab.RootConsole.Framing

namespace NativeInitLab.RootConsole

open LittleEndian Lockstep

/-! The body of an EXEC request at the two ends.  The host builds the body again from
what it read and compares; the device checks offsets and lengths. -/

/-- A body of which every byte is known to belong to one field. -/
structure ExecFields where
  timeout : Nat
  cwd : List UInt8
  command : List UInt8
  deriving DecidableEq, Repr

namespace Host

def execFields (body : List UInt8) : ExecFields :=
  let cwdSize := value (window 4 2 body)
  ⟨value (window 0 4 body), window 6 cwdSize body, body.drop (6 + cwdSize)⟩

end Host

namespace Device

/-- What a C string in a buffer that ends in a zero byte holds. -/
def cString (buffer : List UInt8) : List UInt8 := buffer.takeWhile (· ≠ 0)

/-- `rc1_spawn` up to the first pipe: `-EPROTO`, or the timeout and the strings in
`cwd` and `command`. -/
def parseExec (body : List UInt8) : Except Errno ExecFields :=
  if execBodyOk body then
    .ok ⟨execTimeout body, cString (window 6 (execCwdSize body) body ++ [0]),
      cString (window (6 + execCwdSize body) (body.length - 6 - execCwdSize body) body ++ [0])⟩
  else .error Errno.eproto

theorem cString_of_ne_zero {bytes : List UInt8} (hbytes : ∀ byte ∈ bytes, byte ≠ 0) :
    cString (bytes ++ [0]) = bytes := by
  rw [cString, List.takeWhile_append_of_pos fun byte hbyte => decide_eq_true (hbytes byte hbyte)]
  simp

end Device

variable {body : List UInt8}

theorem exec_layout (hcwd : 6 + value (window 4 2 body) ≤ body.length) :
    store 4 (Host.execFields body).timeout ++ store 2 (Host.execFields body).cwd.length ++
      (Host.execFields body).cwd ++ (Host.execFields body).command = body := by
  simp only [Host.execFields]
  generalize hsize : value (window 4 2 body) = size at hcwd
  have hfirst : (window 0 4 body).length = 4 := length_window (by omega)
  have hsecond : (window 4 2 body).length = 2 := length_window (by omega)
  have hthird : (window 6 size body).length = size := length_window hcwd
  have htimeout : store 4 (value (window 0 4 body)) = window 0 4 body := by
    have hstore := store_value (window 0 4 body)
    rwa [hfirst] at hstore
  have hlength : store 2 size = window 4 2 body := by
    have hstore := store_value (window 4 2 body)
    rwa [hsecond, hsize] at hstore
  have htake : window 0 4 body ++ window 4 2 body ++ window 6 size body =
      window 0 (6 + size) body := by
    rw [window_add 0 6 size, show 6 = 4 + 2 from rfl, window_add 0 4 2]
  rw [hthird, htimeout, hlength, htake, window, List.drop_zero, List.take_append_drop]

theorem validateRequest_exec : Host.validateRequest kindExec body = .ok () ↔ 8 ≤ body.length ∧
      (1 ≤ (Host.execFields body).command.length ∧ (Host.execFields body).command.length ≤ 767 ∧
        (0 : UInt8) ∉ (Host.execFields body).command) ∧
      ((Host.execFields body).cwd.head? = some 0x2f ∧
        (Host.execFields body).cwd.length ≤ 255 ∧ (0 : UInt8) ∉ (Host.execFields body).cwd) ∧
      (1 ≤ (Host.execFields body).timeout ∧ (Host.execFields body).timeout ≤ 300000) ∧
      body.length + 32 ≤ maxPayload := by
  rw [Host.validateRequest, require_bind_eq_ok, require_bind_eq_ok, require_bind_eq_ok,
    if_pos rfl, require_bind_eq_ok]
  constructor
  · rintro ⟨-, -, -, hlength, hrest⟩
    rw [bind_eq_ok] at hrest
    obtain ⟨canonical, hcommand, hsame⟩ := hrest
    rw [Host.command, require_bind_eq_ok, require_bind_eq_ok, require_bind_eq_ok,
      require_bind_eq_ok] at hcommand
    obtain ⟨hline, hcwd, htimeout, hfits, hcanonical⟩ := hcommand
    cases hcanonical
    rw [require_eq_ok] at hsame
    rw [hsame] at hfits
    exact ⟨hlength, hline, hcwd, htimeout, hfits⟩
  · rintro ⟨hlength, hline, hcwd, htimeout, hfits⟩
    have hinside : 6 + value (window 4 2 body) ≤ body.length := by
      have hpositive := hline.1
      simp only [Host.execFields, List.length_drop] at hpositive
      omega
    have hlayout := exec_layout hinside
    have hother : kindExec ∉ [kindStatus, kindControl] ∧ kindExec ≠ kindCancel := by decide
    refine ⟨by decide, fun h => absurd h hother.1, fun h => absurd h hother.2, hlength, ?_⟩
    rw [bind_eq_ok]
    refine ⟨body, ?_, by rw [require_of_pos _ rfl]⟩
    rw [Host.command, require_bind_eq_ok, require_bind_eq_ok, require_bind_eq_ok,
      require_bind_eq_ok]
    refine ⟨hline, hcwd, htimeout, ?_, congrArg Except.ok hlayout⟩
    exact hlayout.symm ▸ hfits

theorem execBodyOk_iff : Device.execBodyOk body ↔ 8 ≤ body.length ∧
      (1 ≤ (Host.execFields body).command.length ∧ (Host.execFields body).command.length ≤ 767 ∧
        (0 : UInt8) ∉ (Host.execFields body).command) ∧
      ((Host.execFields body).cwd.head? = some 0x2f ∧
        (Host.execFields body).cwd.length ≤ 255 ∧ (0 : UInt8) ∉ (Host.execFields body).cwd) ∧
      1 ≤ (Host.execFields body).timeout ∧ (Host.execFields body).timeout ≤ 300000 := by
  simp only [Device.execBodyOk, Device.execTimeout, Device.execCwdSize, Host.execFields]
  generalize value (window 4 2 body) = size
  generalize value (window 0 4 body) = timeout
  have hdrop : body.drop 6 = window 6 size body ++ body.drop (6 + size) := by
    rw [window, ← List.drop_drop, List.take_append_drop]
  have hhead (hsize : size ≠ 0) (hinside : 6 + size < body.length) :
      (window 6 size body).head? = some (body.getD 6 0) := by
    obtain ⟨size, rfl⟩ := Nat.exists_eq_succ_of_ne_zero hsize
    rw [window, List.drop_eq_getElem_cons (by omega), List.take_succ_cons, List.head?_cons,
      List.getD_eq_getElem _ _ (by omega)]
  rw [List.length_drop, hdrop]
  constructor
  · rintro ⟨hlength, hpositive, hbudget, hsize, hshort, hinside, hslash, hline, hzero⟩
    refine ⟨hlength, ⟨by omega, by omega, ?_⟩, ⟨?_, ?_, ?_⟩, by omega, hbudget⟩
    · exact fun hmem => hzero 0 (List.mem_append_right _ hmem) rfl
    · rw [hhead hsize hinside, hslash]
    · rw [length_window (Nat.le_of_lt hinside)]
      exact hshort
    · exact fun hmem => hzero 0 (List.mem_append_left _ hmem) rfl
  · rintro ⟨hlength, ⟨hline, hlong, hcommand⟩, ⟨hslash, hshort, hcwd⟩, hpositive, hbudget⟩
    have hinside : 6 + size < body.length := by omega
    have hsize : size ≠ 0 := by
      rintro rfl
      simp [window] at hslash
    rw [length_window (Nat.le_of_lt hinside)] at hshort
    rw [hhead hsize hinside] at hslash
    refine ⟨hlength, by omega, hbudget, hsize, hshort, hinside, Option.some.inj hslash,
      by omega, ?_⟩
    rintro byte hmem rfl
    rcases List.mem_append.mp hmem with hmem | hmem
    · exact hcwd hmem
    · exact hcommand hmem

theorem parseExec_of_ok (hok : Device.execBodyOk body) :
    Device.parseExec body = .ok (Host.execFields body) := by
  obtain ⟨-, ⟨-, -, hline⟩, ⟨-, -, hpath⟩, -⟩ := execBodyOk_iff.mp hok
  have hcwd : ∀ byte ∈ window 6 (value (window 4 2 body)) body, byte ≠ 0 :=
    fun byte hmem hzero => hpath (hzero ▸ hmem)
  have hcommand : ∀ byte ∈ body.drop (6 + value (window 4 2 body)), byte ≠ 0 :=
    fun byte hmem hzero => hline (hzero ▸ hmem)
  have hrest : window (6 + value (window 4 2 body))
      (body.length - 6 - value (window 4 2 body)) body =
        body.drop (6 + value (window 4 2 body)) := by
    rw [window, Nat.sub_sub]
    exact List.take_of_length_le (by rw [List.length_drop])
  rw [Device.parseExec, if_pos hok, Device.execCwdSize, hrest,
    Device.cString_of_ne_zero hcwd, Device.cString_of_ne_zero hcommand]
  rfl

/-- The host accepts an EXEC body exactly when the device parses it and it fits one
frame; both then read the same fields. -/
theorem exec_bodies_agree (body : List UInt8) : (Host.validateRequest kindExec body = .ok () ↔
      (∃ fields, Device.parseExec body = .ok fields) ∧ body.length + 32 ≤ maxPayload) ∧
    (Host.validateRequest kindExec body = .ok () →
      Device.parseExec body = .ok (Host.execFields body) ∧
        ∀ seq < 2 ^ 32, Frame.Fits ⟨kindExec, seq, body⟩) := by
  have hparse : (∃ fields, Device.parseExec body = .ok fields) ↔ Device.execBodyOk body := by
    constructor
    · rintro ⟨fields, hfields⟩
      by_contra hbad
      rw [Device.parseExec, if_neg hbad] at hfields
      cases hfields
    · intro hok
      exact ⟨Host.execFields body, parseExec_of_ok hok⟩
  have haccepts : Host.validateRequest kindExec body = .ok () ↔
      Device.execBodyOk body ∧ body.length + 32 ≤ maxPayload := by
    rw [validateRequest_exec, execBodyOk_iff]
    constructor
    · rintro ⟨hlength, hline, hcwd, htimeout, hfits⟩
      exact ⟨⟨hlength, hline, hcwd, htimeout⟩, hfits⟩
    · rintro ⟨⟨hlength, hline, hcwd, htimeout⟩, hfits⟩
      exact ⟨hlength, hline, hcwd, htimeout, hfits⟩
  refine ⟨haccepts.trans (and_congr_left' hparse.symm), ?_⟩
  intro hvalid
  obtain ⟨hok, hfits⟩ := haccepts.mp hvalid
  exact ⟨parseExec_of_ok hok, fun seq hseq => ⟨(by decide : kindExec < 256), hseq, hfits⟩⟩

theorem execFields_build {timeout : Nat} {cwd command : List UInt8}
    (htimeout : timeout < 256 ^ 4) (hcwd : cwd.length < 256 ^ 2) :
    Host.execFields (store 4 timeout ++ store 2 cwd.length ++ cwd ++ command) =
      ⟨timeout, cwd, command⟩ := by
  have hhead : (store 4 timeout ++ store 2 cwd.length).length = 6 := by simp
  have hfirst : window 0 4 (store 4 timeout ++ store 2 cwd.length ++ cwd ++ command) =
      store 4 timeout := by
    rw [List.append_assoc, List.append_assoc, window_append_left (by simp)]
    simp [window, List.take_of_length_le]
  have hsecond : window 4 2 (store 4 timeout ++ store 2 cwd.length ++ cwd ++ command) =
      store 2 cwd.length := by
    rw [List.append_assoc, List.append_assoc, window_append_right (by simp)]
    simp [window, List.take_left']
  simp only [Host.execFields, hfirst, hsecond, value_store_of_lt htimeout, value_store_of_lt hcwd]
  rw [List.append_assoc (store 4 timeout ++ store 2 cwd.length), ← hhead,
    window_append_right (Nat.le_refl _), ← List.drop_drop, List.drop_left, List.drop_left,
    Nat.sub_self, window, List.drop_zero, List.take_left]

def longBody : List UInt8 :=
  store 4 1000 ++ store 2 (List.replicate 255 (0x2f : UInt8)).length ++
    List.replicate 255 0x2f ++ List.replicate 767 0x61

theorem length_longBody : longBody.length = 1028 := by
  rw [longBody, List.length_append, List.length_append, List.length_append,
    List.length_replicate, List.length_replicate, length_store, length_store]

/-- The device parses a body that the host refuses, because it is longer than a
frame can carry. -/
theorem device_parses_longer_body : Device.parseExec longBody = .ok (Host.execFields longBody) ∧
      Host.validateRequest kindExec longBody ≠ .ok () := by
  have hfields : Host.execFields longBody =
      ⟨1000, List.replicate 255 0x2f, List.replicate 767 0x61⟩ := by
    apply execFields_build (by decide)
    rw [List.length_replicate]
    decide
  refine ⟨parseExec_of_ok (execBodyOk_iff.mpr ?_), ?_⟩
  · simp only [hfields, length_longBody, List.length_replicate, List.mem_replicate]
    decide
  · intro hvalid
    have hbound := (validateRequest_exec.mp hvalid).2.2.2.2
    rw [length_longBody] at hbound
    exact absurd hbound (by decide)

end NativeInitLab.RootConsole
