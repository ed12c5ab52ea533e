import Tern.Desktop.Secrecy
import Tern.Ssh.Keys
import Tern.Store.Reimport
import Tern.Store.Tags

/-! The form that adds a host or edits one: what it shows, and what saving it submits. -/

namespace Tern.HostForm

open Tern.Store Tern.Desktop Tern.Ssh

section Chains

/-- Which methods may follow a first one. -/
def fallbackOptions (first : AuthKind) : List AuthKind :=
  if first = .agent then [.keyFile, .password] else [.agent]

/-- The one method of a chain that takes a credential, if any. -/
def credentialedKind (chain : List AuthKind) : Option AuthKind :=
  chain.find? fun kind => kind == .keyFile || kind == .password

/-- The chain as a list, without the empty slot behind the first method. -/
def toChain (first : AuthKind) (then_ : Option AuthKind) : List AuthKind := first :: then_.toList

end Chains

section Texts

/-- What the language of the webview counts as white space or as the end of a line. -/
def isBlank (c : Char) : Bool :=
  let code := c.toNat
  (0x9 ≤ code && code ≤ 0xD) || code == 0x20 || code == 0xA0 || code == 0x1680 ||
    (0x2000 ≤ code && code ≤ 0x200A) || code == 0x2028 || code == 0x2029 || code == 0x202F ||
    code == 0x205F || code == 0x3000 || code == 0xFEFF

/-- A text without the blanks on both sides. -/
def trim (text : String) : String :=
  String.ofList ((text.toList.dropWhile isBlank).rdropWhile isBlank)

/--
The port of a field, if it is one that goes over the wire.

Digits are the number they stand for, and the parameter is what every other text comes to,
with zero for what is no number.
-/
def portOf (number : String → Option UInt16) (text : String) : Option UInt16 :=
  let trimmed := trim text
  let port :=
    if trimmed.toList.all Char.isDigit then
      if trimmed = "" then some 0 else SshConfig.parseU16 trimmed
    else number trimmed
  -- Zero and what is no number give way to the default.
  port.map fun port => if port = 0 then 22 else port

end Texts

/-- The form, with the host it edits if it does not add one. -/
structure Form where
  editing : Option ShownHost
  name : String
  hostname : String
  port : String
  username : String
  first : AuthKind
  then_ : Option AuthKind
  keyPath : String
  secret : String
  reconnect : Bool
  keyInfo : Option KeyInfo
  keyError : String
  inspecting : Bool
  /-- The path that is inspected once the typing pauses. -/
  timer : Option String
  /-- The paths whose inspections have not answered yet. -/
  asked : List String

namespace Form

variable (form : Form)

/-- The methods that are chosen. -/
def chain : List AuthKind := toChain form.first form.then_

/-- A key is among the methods. -/
def usesKey : Bool := form.chain.contains .keyFile

/-- The key was found to be encrypted. -/
def encrypted : Bool := form.keyInfo.any KeyInfo.encrypted

/-- The method that is chosen has a use for the field of the secret, which is shown then. -/
def wantsSecret : Bool :=
  credentialedKind form.chain == some .password ||
    (credentialedKind form.chain == some .keyFile && form.encrypted)

/-- The key's path is looked at again, or forgotten where there is no use for it. -/
def inspect : Form :=
  let path := trim form.keyPath
  if !form.usesKey || path == "" then
    { form with keyInfo := none, keyError := "", inspecting := false, timer := none }
  -- An inspection that is under way is not called back.
  else { form with inspecting := true, timer := some path }

/-- The inspection follows what it depends on. -/
def rendered (before : Form) : Form :=
  if form.usesKey = before.usesKey ∧ form.keyPath = before.keyPath then form else form.inspect

/-- The values the form begins with. -/
def initial (editing : Option ShownHost) : Form where
  editing
  name := (editing.map fun host => host.name).getD ""
  hostname := (editing.map fun host => host.hostname).getD ""
  port := (editing.map fun host => toString host.port.toNat).getD "22"
  username := (editing.map fun host => host.username).getD ""
  first := (editing.map fun host => host.auth).getD .agent
  then_ := editing.bind fun host => host.authFallbacks.head?
  keyPath := (editing.bind fun host => host.keyPath).getD ""
  secret := ""
  -- Nothing to inherit is shown as the default, which is to reconnect.
  reconnect := editing.all fun host => host.overrides.reconnectEnabled != some false
  keyInfo := none
  keyError := ""
  inspecting := false
  timer := none
  asked := []

/-- The form as it opens. -/
def open_ (editing : Option ShownHost) : Form := (initial editing).inspect

end Form

/-- What happens to the form. -/
inductive FormEvent where
  | setName (text : String)
  | setHostname (text : String)
  | setPort (text : String)
  | setUsername (text : String)
  | chooseFirst (kind : AuthKind)
  | chooseThen (kind : Option AuthKind)
  /-- A path is typed, or picked in a dialog that answers late. -/
  | setKeyPath (text : String)
  | setSecret (text : String)
  | setReconnect (on : Bool)
  | timerFires
  /-- One of the inspections answers, and not in the order they were asked for. -/
  | inspected (index : Nat) (result : Except String KeyInfo)

/-- The form after one event, if it offers what the event takes. -/
def formStep (form : Form) : FormEvent → Option Form
  | .setName name => some { form with name }
  | .setHostname hostname => some { form with hostname }
  | .setPort port => some { form with port }
  | .setUsername username => some { form with username }
  | .chooseFirst first =>
    let kept := form.then_.filter (fallbackOptions first).contains
    some (Form.rendered { form with first, then_ := kept } form)
  | .chooseThen then_ =>
    if then_.all (fallbackOptions form.first).contains then
      some (Form.rendered { form with then_ } form)
    else none
  | .setKeyPath keyPath => some (Form.rendered { form with keyPath } form)
  | .setSecret secret => if form.wantsSecret then some { form with secret } else none
  | .setReconnect reconnect => some { form with reconnect }
  | .timerFires => form.timer.map fun path =>
      { form with timer := none, asked := form.asked ++ [path] }
  | .inspected index result =>
    if index < form.asked.length then
      let answered := { form with asked := form.asked.eraseIdx index, inspecting := false }
      match result with
      | .ok info => some { answered with keyInfo := some info, keyError := "" }
      | .error reason => some { answered with keyInfo := none, keyError := reason }
    else none

namespace Form

variable (form : Form)

section Saving

/-- Nothing is saved before the key at the path is known. -/
def keyBlocks : Bool :=
  form.usesKey && (trim form.keyPath == "" || form.inspecting || form.keyError != "" ||
    form.keyInfo.isNone)

/-- The buttons that save and test are enabled. -/
def canSave : Bool := trim form.hostname != "" && !form.keyBlocks

/-- The overrides with the opt-out alone set anew, and whatever else is overridden kept. -/
def withReconnect (overrides : HostOverrides) (reconnect : Bool) : HostOverrides :=
  { overrides with reconnectEnabled := if reconnect then none else some false }

/-- The fields of the form, in the place of those of a host. -/
def fields (port : UInt16) (host : NewHostDto) : NewHostDto :=
  { host with
    name := if trim form.name = "" then trim form.hostname else trim form.name
    hostname := trim form.hostname
    port
    username := trim form.username
    auth := form.first
    authFallbacks := form.then_.toList
    keyPath := if form.usesKey then some (trim form.keyPath) |>.filter (· ≠ "") else none
    overrides := withReconnect host.overrides form.reconnect }

/-- A host with nothing of its own but what the form holds. -/
def blankHost : NewHostDto :=
  ⟨none, "", "", 22, "", .agent, [], none, .default, none, none, none, []⟩

/-- The text of the secret's field, if there is one. -/
def typed : Option String := some form.secret |>.filter (· ≠ "")

/-- What an edit does with the stored secret. -/
def secretUpdate (host : ShownHost) : SecretUpdateDto :=
  if !form.wantsSecret then
    if host.hasSecret then .clear else .unchanged
  else match form.typed with
    | some secret => .set secret
    | none => .unchanged

/-- What is submitted once the key was checked. -/
def command (port : UInt16) : StoreCommand :=
  match form.editing with
  | some host => .updateHost { form.fields port host.toNewHostDto with id := host.id }
      (form.secretUpdate host)
  | none => .createHost (form.fields port blankHost) (if form.wantsSecret then form.typed else none)

/-- What saving the form submits, where a key is checked first with the secret that was typed. -/
def save (number : String → Option UInt16) (verifyKeyPassphrase : String → Option String → Bool) :
    Option StoreCommand :=
  if form.canSave then
    -- A passphrase that stays as it is stored was never held here, and is not checked.
    let keepStoredPassphrase := form.editing.isSome && form.encrypted && form.typed.isNone
    if form.usesKey && !keepStoredPassphrase && !verifyKeyPassphrase (trim form.keyPath) form.typed
    then none
    else (portOf number form.port).map form.command
  else none

/-- A connection to be tested. -/
structure TestRequest where
  host : String
  port : UInt16
  username : String
  auth : List AuthMethodDto
  hostId : Option Int

/-- The chain with the secret at its methods. -/
def authDtos : List AuthMethodDto :=
  form.chain.map fun kind =>
    match kind with
    | .password => .password form.secret
    | .keyFile => .keyFile (trim form.keyPath) form.typed
    | .agent => .agent

/-- What testing the form asks for. -/
def test (number : String → Option UInt16) : Option TestRequest :=
  if form.canSave then
    (portOf number form.port).map fun port =>
      ⟨trim form.hostname, port, trim form.username, form.authDtos,
        form.editing.map fun host => host.id⟩
  else none

end Saving

end Form

section Texts

variable {number : String → Option UInt16} {text : String}

/-- A text without its blanks has none to lose. -/
@[simp] theorem trim_trim (text : String) : trim (trim text) = trim text := by
  simp [trim, Text.dropBoth_idem]

/-- A text without any blank stays as it is. -/
theorem trim_visible (visible : ∀ c ∈ text.toList, isBlank c = false) : trim text = text := by
  -- Neither end of the text is a blank, so neither end is cut.
  have front : text.toList.dropWhile isBlank = text.toList := by
    rw [List.dropWhile_eq_self_iff]
    intro occupied blank
    rw [visible _ (List.getElem_mem occupied)] at blank
    cases blank
  have back : text.toList.rdropWhile isBlank = text.toList := by
    rw [List.rdropWhile_eq_self_iff]
    intro occupied blank
    rw [visible _ (List.getLast_mem occupied)] at blank
    cases blank
  rw [trim, front, back, String.ofList_toList]

/-- No port is zero. -/
theorem portOf_ne_zero {port : UInt16} (read : portOf number text = some port) : port ≠ 0 := by
  obtain ⟨given, -, rfl⟩ := Option.map_eq_some_iff.mp read
  split
  · decide
  · assumption

/-- The port of a host is read back from its field. -/
theorem portOf_toString {port : UInt16} (served : port ≠ 0) :
    portOf number (toString port.toNat) = some port := by
  -- The digits have no blank among them, and are read as the number they print.
  have digits : ∀ c ∈ (toString port.toNat).toList, c.isDigit = true :=
    fun c member => Text.isDigit_of_mem_repr member
  have plain : trim (toString port.toNat) = toString port.toNat := by
    refine trim_visible fun c member => ?_
    have bounds : 48 ≤ c.toNat ∧ c.toNat ≤ 57 := Char.isDigit_iff_toNat.mp (digits c member)
    simp only [isBlank, Bool.or_eq_false_iff, Bool.and_eq_false_iff, decide_eq_false_iff_not,
      beq_eq_false_iff_ne]
    omega
  have filled : toString port.toNat ≠ "" := by
    intro empty
    have chars : (toString port.toNat).toList = Nat.toDigits 10 port.toNat := Nat.toList_repr
    rw [empty] at chars
    exact Nat.toDigits_ne_nil chars.symm
  -- The number is below the bound of a port.
  have read : SshConfig.parseU16 (toString port.toNat) = some port := by
    rw [SshConfig.parseU16, parseUnsigned_toString port.toNat_lt, Option.map_some,
      UInt16.ofNat_toNat]
  unfold portOf
  dsimp only
  rw [plain, if_pos (List.all_eq_true.mpr digits), if_neg filled, read, Option.map_some,
    if_neg served]

end Texts

section Choices

variable {form next before : Form} {event : FormEvent}

/-- The method behind the first one is one that may follow it. -/
def Fits (form : Form) : Prop := ∀ kind, form.then_ = some kind → kind ∈ fallbackOptions form.first

/-- The event is a choice of a method. -/
def FormEvent.Chooses : FormEvent → Prop
  | .chooseFirst _ | .chooseThen _ => True
  | _ => False

/-- An inspection leaves the methods. -/
@[simp] theorem methods_inspect (form : Form) :
    form.inspect.first = form.first ∧ form.inspect.then_ = form.then_ := by
  -- An inspection is only scheduled here, and nothing is read.
  unfold Form.inspect
  dsimp only
  split
  · exact ⟨rfl, rfl⟩
  · exact ⟨rfl, rfl⟩

/-- So does a form that is shown again. -/
@[simp] theorem methods_rendered (form before : Form) :
    (form.rendered before).first = form.first ∧ (form.rendered before).then_ = form.then_ := by
  unfold Form.rendered
  split
  · exact ⟨rfl, rfl⟩
  · exact methods_inspect form

/-- A chain fits when an inspected form has one that does. -/
theorem Fits.rendered (fits : Fits form) (before : Form) : Fits (form.rendered before) := by
  intro kind
  simp only [methods_rendered]
  exact fits kind

/-- Whatever is chosen fits: the first method drops a fallback that may not follow it. -/
theorem fits_of_chosen (chooses : event.Chooses) (taken : formStep form event = some next) :
    Fits next := by
  -- A first method filters the fallback, and a fallback is offered only where it fits.
  cases event with
  | chooseFirst first =>
    cases taken
    refine Fits.rendered ?_ form
    intro kind kept
    simpa using (Option.filter_eq_some_iff.mp kept).2
  | chooseThen then_ =>
    obtain ⟨allowed, taken⟩ := Option.ite_none_right_eq_some.mp taken
    cases taken
    refine Fits.rendered ?_ form
    intro kind chosen
    rw [show then_ = some kind from chosen] at allowed
    simpa using allowed
  | _ => cases chooses

/-- The methods change by a choice alone. -/
theorem methods_of_quiet (quiet : ¬event.Chooses) (taken : formStep form event = some next) :
    next.first = form.first ∧ next.then_ = form.then_ := by
  -- Every other event writes to other fields.
  cases event with
  | chooseFirst first => exact absurd trivial quiet
  | chooseThen then_ => exact absurd trivial quiet
  -- Only a key path does more, as it renders the form again.
  | setKeyPath text =>
    cases taken
    exact methods_rendered _ form
  | setSecret text =>
    obtain ⟨-, taken⟩ := Option.ite_none_right_eq_some.mp taken
    cases taken
    exact ⟨rfl, rfl⟩
  | timerFires =>
    obtain ⟨path, -, rfl⟩ := Option.map_eq_some_iff.mp taken
    exact ⟨rfl, rfl⟩
  | inspected index result =>
    obtain ⟨-, taken⟩ := Option.ite_none_right_eq_some.mp taken
    cases result with
    | ok info =>
      cases taken
      exact ⟨rfl, rfl⟩
    | error reason =>
      cases taken
      exact ⟨rfl, rfl⟩
  | _ =>
    cases taken
    exact ⟨rfl, rfl⟩

/-- A chain that fits goes on to. -/
theorem fits_step (fits : Fits form) (taken : formStep form event = some next) : Fits next := by
  -- A choice fits by itself, and anything else leaves the methods.
  by_cases chooses : event.Chooses
  · exact fits_of_chosen chooses taken
  · obtain ⟨first, then_⟩ := methods_of_quiet chooses taken
    unfold Fits
    rw [first, then_]
    exact fits

/-- Behind the first choice, or from the start, the chain of a form fits. -/
theorem fits_of_run {events : List FormEvent}
    (permitted : Fits before ∨ ∃ event ∈ events, event.Chooses)
    (ran : System.run formStep before events = some form) : Fits form := by
  rcases permitted with fits | ⟨event, member, chooses⟩
  · exact System.run_preserves fits_step fits ran
  · obtain ⟨early, late, rfl⟩ := List.append_of_mem member
    rw [System.run_append] at ran
    obtain ⟨middle, -, ran⟩ := Option.bind_eq_some_iff.mp ran
    obtain ⟨chosen, taken, ran⟩ := Option.bind_eq_some_iff.mp ran
    -- From the choice on, every step keeps what it made sure of.
    exact System.run_preserves fits_step (fits_of_chosen chooses taken) ran

/-- A chain that fits tries no method twice, and at most one that takes a credential. -/
theorem Fits.single (fits : Fits form) :
    form.chain.Nodup ∧ form.chain.length ≤ 2 ∧
      (form.chain.filter fun kind => (roleOf kind).isSome).length ≤ 1 := by
  -- There are three methods and few pairs, which are gone through.
  unfold Form.chain toChain
  unfold Fits at fits
  cases chosen : form.then_ with
  | none => cases form.first <;> decide
  | some kind =>
    have allowed := fits kind chosen
    revert allowed
    cases form.first <;> cases kind <;> decide

end Choices

section Saved

/-- The method that takes the credential decides its role. -/
theorem credentialRole_eq (kinds : List AuthKind) :
    credentialRole kinds = (credentialedKind kinds).bind roleOf := by
  -- The first method with a role is the first one that takes a credential.
  unfold credentialRole credentialedKind
  induction kinds with
  | nil => rfl
  | cons kind rest ih =>
    cases kind with
    | agent =>
      rw [List.findSome?_cons, List.find?_cons]
      exact ih
    | keyFile => rfl
    | password => rfl

/-- A host that a form may submit. -/
structure Submittable (dto : NewHostDto) : Prop where
  named : dto.name ≠ "" ∧ trim dto.name = dto.name
  addressed : dto.hostname ≠ "" ∧ trim dto.hostname = dto.hostname
  port : dto.port ≠ 0
  username : trim dto.username = dto.username
  /-- No method is tried twice, and one credential is enough. -/
  methods : dto.chain.Nodup ∧ (dto.chain.filter fun kind => (roleOf kind).isSome).length ≤ 1
  keyed : if .keyFile ∈ dto.chain then
      ∃ path, dto.keyPath = some path ∧ path ≠ "" ∧ trim path = path
    else dto.keyPath = none

/-- A secret that goes with a host: its methods use one, and a passphrase opened the host's key. -/
def Belongs (verifyKeyPassphrase : String → Option String → Bool) (dto : NewHostDto)
    (secret : String) : Prop :=
  secret ≠ "" ∧ ∃ role, credentialRole dto.chain = some role ∧
    (role = .passphrase → ∃ path, dto.keyPath = some path ∧
      verifyKeyPassphrase path (some secret) = true)

/-- What the form may submit. -/
def Lawful (verifyKeyPassphrase : String → Option String → Bool) : StoreCommand → Prop
  | .createHost dto secret =>
    Submittable dto ∧ ∀ text, secret = some text → Belongs verifyKeyPassphrase dto text
  | .updateHost dto secret =>
    Submittable dto.toNewHostDto ∧
      ∀ text, secret = .set text → Belongs verifyKeyPassphrase dto.toNewHostDto text
  | _ => False

/-- A test tries what a host that is saved would. -/
structure Form.TestRequest.Tries (request : Form.TestRequest) (dto : NewHostDto) : Prop where
  host : request.host = dto.hostname
  port : request.port = dto.port
  username : request.username = dto.username
  auth : request.auth.map dtoRole = dto.chain.map roleOf
  keyPath : ∀ path passphrase, .keyFile path passphrase ∈ request.auth → dto.keyPath = some path

variable {form : Form} {number : String → Option UInt16} {port : UInt16} {host : NewHostDto}
  {verifyKeyPassphrase : String → Option String → Bool}

/-- The fields that are submitted have the form's methods. -/
@[simp] theorem chain_fields : (form.fields port host).chain = form.chain := rfl

/-- The fields of a form that can be saved are those of a host. -/
theorem submittable_fields (fits : Fits form) (enabled : form.canSave = true) (served : port ≠ 0) :
    Submittable (form.fields port host) := by
  obtain ⟨addressed, unblocked⟩ : trim form.hostname ≠ "" ∧ form.keyBlocks = false := by
    simpa [Form.canSave] using enabled
  obtain ⟨distinct, -, single⟩ := fits.single
  refine ⟨?_, ⟨addressed, trim_trim _⟩, served, trim_trim _, ⟨distinct, single⟩, ?_⟩
  · simp only [Form.fields]
    -- A name that is left blank is that of the address.
    split
    · exact ⟨addressed, trim_trim _⟩
    · exact ⟨by assumption, trim_trim _⟩
  · rw [chain_fields]
    -- The path is asked for exactly when some method uses a key.
    by_cases keyed : .keyFile ∈ form.chain
    · rw [if_pos keyed]
      have uses : form.usesKey = true := by simpa [Form.usesKey] using keyed
      have present : trim form.keyPath ≠ "" := by
        intro empty
        simp [Form.keyBlocks, uses, empty] at unblocked
      exact ⟨trim form.keyPath, by simp [Form.fields, uses, present], present, trim_trim _⟩
    · rw [if_neg keyed]
      have unused : form.usesKey = false := by simpa [Form.usesKey] using keyed
      simp [Form.fields, unused]

/-- What is saved was checked: the key with what was typed, unless the stored passphrase stays. -/
theorem save_eq_some {command : StoreCommand}
    (saved : form.save number verifyKeyPassphrase = some command) :
    form.canSave = true ∧
      (form.usesKey = true → form.typed = none ∨
        verifyKeyPassphrase (trim form.keyPath) form.typed = true) ∧
      ∃ port, portOf number form.port = some port ∧ command = form.command port := by
  -- Saving is guarded by the fields first and by the key's passphrase second.
  unfold Form.save at saved
  obtain ⟨enabled, saved⟩ := Option.ite_none_right_eq_some.mp saved
  obtain ⟨checked, saved⟩ := Option.ite_none_left_eq_some.mp saved
  obtain ⟨port, read, same⟩ := Option.map_eq_some_iff.mp saved
  refine ⟨enabled, fun uses => ?_, port, read, same.symm⟩
  by_cases opened : verifyKeyPassphrase (trim form.keyPath) form.typed = true
  · exact .inr opened
  · left
    simp only [uses, Bool.true_and, Bool.and_eq_true, Bool.not_eq_true'] at checked
    have kept : form.editing.isSome = true ∧ form.encrypted = true ∧ form.typed = none := by
      simpa [opened] using checked
    exact kept.2.2

/-- A secret that is shown and was typed belongs to the host that is saved. -/
theorem belongs_of_typed {text : String} (wanted : form.wantsSecret = true)
    (typed : form.typed = some text) (enabled : form.canSave = true)
    (checked : form.usesKey = true → form.typed = none ∨
      verifyKeyPassphrase (trim form.keyPath) form.typed = true) :
    Belongs verifyKeyPassphrase (form.fields port host) text := by
  have filled : text ≠ "" := by simpa using (Option.filter_eq_some_iff.mp typed).2
  refine ⟨filled, ?_⟩
  rw [chain_fields, credentialRole_eq]
  -- The field of the secret is shown for a password, or for a key that needs one.
  have kinds : credentialedKind form.chain = some .password ∨
      credentialedKind form.chain = some .keyFile := by
    have either := wanted
    simp only [Form.wantsSecret, Bool.or_eq_true, Bool.and_eq_true, beq_iff_eq] at either
    exact either.imp_right (·.1)
  rcases kinds with password | keyed
  · exact ⟨.password, by rw [password]; rfl, fun other => nomatch other⟩
  · refine ⟨.passphrase, by rw [keyed]; rfl, fun _ => ?_⟩
    have member : .keyFile ∈ form.chain := List.mem_of_find?_eq_some keyed
    have uses : form.usesKey = true := by simpa [Form.usesKey] using member
    have present : trim form.keyPath ≠ "" := by
      intro empty
      simp [Form.canSave, Form.keyBlocks, uses, empty] at enabled
    refine ⟨trim form.keyPath, by simp [Form.fields, uses, present], ?_⟩
    -- What was typed was tried on the key at this very path.
    rw [typed] at checked
    simpa using checked uses

/-- What is saved is lawful. -/
theorem lawful_of_saved {command : StoreCommand} (fits : Fits form)
    (saved : form.save number verifyKeyPassphrase = some command) :
    Lawful verifyKeyPassphrase command := by
  -- A creation carries what was typed, and an update only what replaces something.
  obtain ⟨enabled, checked, port, read, rfl⟩ := save_eq_some saved
  have served := portOf_ne_zero read
  unfold Form.command
  cases form.editing with
  | none =>
    refine ⟨submittable_fields fits enabled served, fun text given => ?_⟩
    -- A secret is only given while its field is shown.
    obtain ⟨wanted, typed⟩ := Option.ite_none_right_eq_some.mp given
    exact belongs_of_typed wanted typed enabled checked
  | some host =>
    refine ⟨submittable_fields fits enabled served, fun text given => ?_⟩
    unfold Form.secretUpdate at given
    split at given
    · split at given <;> cases given
    · rename_i wanted
      split at given
      · rename_i secret typed
        cases given
        exact belongs_of_typed (by simpa using wanted) typed enabled checked
      · cases given

/-- The host of a command that saves one. -/
def savedHost : StoreCommand → Option NewHostDto
  | .createHost dto _ => some dto
  | .updateHost dto _ => some dto.toNewHostDto
  | _ => none

/-- What is saved can be tested, and the test tries the same. -/
theorem tries_of_saved {command : StoreCommand}
    (saved : form.save number verifyKeyPassphrase = some command) :
    ∃ request dto, form.test number = some request ∧ savedHost command = some dto ∧
      request.Tries dto := by
  -- The test is made from the same fields as the host, method by method.
  obtain ⟨enabled, -, port, read, rfl⟩ := save_eq_some saved
  have host : ∃ dto, savedHost (form.command port) = some (form.fields port dto) := by
    unfold Form.command
    cases form.editing with
    | none => exact ⟨_, rfl⟩
    | some host => exact ⟨host.toNewHostDto, rfl⟩
  obtain ⟨dto, host⟩ := host
  refine ⟨_, _, by rw [Form.test, if_pos enabled, read]; rfl, host, rfl, rfl, rfl, ?_, ?_⟩
  · rw [chain_fields]
    simp only [Form.authDtos, List.map_map]
    refine List.map_congr_left fun kind _ => ?_
    cases kind <;> rfl
  · -- The key of a test is the key of the host.
    intro path passphrase member
    obtain ⟨kind, chosen, same⟩ := List.mem_map.mp member
    cases kind with
    | agent => cases same
    | password => cases same
    | keyFile =>
      cases same
      have uses : form.usesKey = true := by simpa [Form.usesKey] using chosen
      have present : trim form.keyPath ≠ "" := by
        intro empty
        simp [Form.canSave, Form.keyBlocks, uses, empty] at enabled
      simp [Form.fields, uses, present]

/--
Whatever is typed, chosen and answered late, a form submits a host with one credential at most.

A secret goes with it only if one of its methods uses one, and as a passphrase only if it opened
the key that is saved. A test of the form tries what the host would.
-/
theorem saved_form_lawful (number : String → Option UInt16)
    (verifyKeyPassphrase : String → Option String → Bool) {editing : Option ShownHost}
    {events : List FormEvent} {command : StoreCommand}
    (permitted : (∀ host, editing = some host → ∀ kind, host.authFallbacks.head? = some kind →
      kind ∈ fallbackOptions host.auth) ∨ ∃ event ∈ events, event.Chooses)
    (ran : System.run formStep (Form.open_ editing) events = some form)
    (saved : form.save number verifyKeyPassphrase = some command) :
    Lawful verifyKeyPassphrase command ∧
      ∃ request dto, form.test number = some request ∧ savedHost command = some dto ∧
        request.Tries dto := by
  -- The form opens with a pair that fits, or the user chooses one on the way.
  have opened : Fits (Form.open_ editing) ∨ ∃ event ∈ events, event.Chooses := by
    refine permitted.imp_left fun allowed => ?_
    intro kind chosen
    simp only [Form.open_, Form.initial, methods_inspect] at chosen ⊢
    obtain ⟨host, edited, second⟩ := Option.bind_eq_some_iff.mp chosen
    rw [edited]
    exact allowed host edited kind second
  exact ⟨lawful_of_saved (fits_of_run opened ran) saved, tries_of_saved saved⟩

/-- A path is retyped before the inspection of the first one has answered, which it then does. -/
def retyped : List FormEvent :=
  [.setHostname " web.example ", .chooseFirst .keyFile, .setKeyPath "/old", .timerFires,
    .setKeyPath "/new", .inspected 0 (.ok ⟨.openSsh, true, none, none, none⟩), .setSecret "key"]

/-- The passphrase opens the key at the later path alone. -/
def opensNew (path : String) (passphrase : Option String) : Bool :=
  path == "/new" && passphrase == some "key"

/-- What an outdated inspection showed is saved with the later path, whose key it opened. -/
theorem outdated_inspection_saved :
    ∃ form dto, System.run formStep (Form.open_ none) retyped = some form ∧
      form.save (fun _ => none) opensNew = some (.createHost dto (some "key")) ∧
      dto.keyPath = some "/new" ∧ Belongs opensNew dto "key" := by
  -- The run is evaluated, and the theorem says that the passphrase belongs to the key.
  obtain ⟨form, dto, ran, saved, path⟩ :
      ∃ form dto, System.run formStep (Form.open_ none) retyped = some form ∧
        form.save (fun _ => none) opensNew = some (.createHost dto (some "key")) ∧
        dto.keyPath = some "/new" := ⟨_, _, rfl, rfl, rfl⟩
  have lawful := (saved_form_lawful (fun _ => none) opensNew (.inr ⟨.chooseFirst .keyFile,
    by simp [retyped], trivial⟩) ran saved).1
  exact ⟨form, dto, ran, saved, path, lawful.2 "key" rfl⟩

end Saved

section Untouched

variable {form next : Form} {event : FormEvent}

/-- The event is none of the user's. -/
def FormEvent.Inspects : FormEvent → Prop
  | .timerFires | .inspected _ _ => True
  | _ => False

/-- The form edits a host and holds its values, with nothing typed as its secret. -/
structure Shows (host : Host) (form : Form) : Prop where
  editing : form.editing = some (hostDto host)
  name : form.name = host.name
  hostname : form.hostname = host.hostname
  port : form.port = toString host.port.toNat
  username : form.username = host.username
  first : form.first = host.auth
  then_ : form.then_ = host.authFallbacks.head?
  keyPath : form.keyPath = host.keyPath.getD ""
  secret : form.secret = ""
  reconnect : form.reconnect = (host.overrides.reconnectEnabled != some false)

/-- The form opens with the host's values. -/
theorem shows_open (host : Host) : Shows host (Form.open_ (some (hostDto host))) := by
  -- Opening fills in the values, and scheduling an inspection changes none of them.
  have shows : Shows host (Form.initial (some (hostDto host))) :=
    ⟨rfl, rfl, rfl, rfl, rfl, rfl, rfl, rfl, rfl, rfl⟩
  unfold Form.open_ Form.inspect
  dsimp only
  split
  · exact { shows with }
  · exact { shows with }

/-- What the inspections do leaves the values. -/
theorem shows_step {host : Host} (shows : Shows host form) (inspects : event.Inspects)
    (taken : formStep form event = some next) : Shows host next := by
  -- An inspection and its timer write to their own fields.
  cases event with
  | timerFires =>
    obtain ⟨path, -, rfl⟩ := Option.map_eq_some_iff.mp taken
    exact { shows with }
  | inspected index result =>
    obtain ⟨-, taken⟩ := Option.ite_none_right_eq_some.mp taken
    cases result with
    | ok info =>
      cases taken
      exact { shows with }
    | error reason =>
      cases taken
      exact { shows with }
  | _ => cases inspects

/-- A record that the form shows as it is, and can put back. -/
structure Plain (host : Host) : Prop where
  name : host.name ≠ "" ∧ trim host.name = host.name
  hostname : trim host.hostname = host.hostname
  username : trim host.username = host.username
  fallbacks : host.authFallbacks.length ≤ 1
  keyPath : ∀ path, host.keyPath = some path → .keyFile ∈ Desktop.chain host ∧ trim path = path
  reconnect : host.overrides.reconnectEnabled ≠ some true

/-- A name is put back unless it has blanks around it, or nothing but blanks. -/
theorem name_kept_iff {name hostname : String} (addressed : trim hostname ≠ "") :
    (if trim name = "" then trim hostname else trim name) = name ↔
      name ≠ "" ∧ trim name = name := by
  by_cases blank : trim name = ""
  · -- The host's own name takes the place, and is not blank.
    rw [if_pos blank]
    constructor
    · intro same
      rw [← same, trim_trim] at blank
      exact absurd blank addressed
    · rintro ⟨filled, same⟩
      exact absurd (same.symm.trans blank) filled
  · rw [if_neg blank]
    exact ⟨fun same => ⟨fun empty => blank (same.trans empty), same⟩, fun kept => kept.2⟩

/-- A path is put back if a method uses it and it has no blanks around it. -/
theorem keyPath_kept_iff {uses : Prop} [Decidable uses] {keyPath : Option String}
    (present : uses → trim (keyPath.getD "") ≠ "") :
    (if uses then some (trim (keyPath.getD "")) |>.filter (· ≠ "") else none) = keyPath ↔
      ∀ path, keyPath = some path → uses ∧ trim path = path := by
  -- A path that is not used is dropped, and one that is used is trimmed.
  by_cases used : uses
  · have kept : (some (trim (keyPath.getD "")) |>.filter (· ≠ "")) =
        some (trim (keyPath.getD "")) := by
      simpa using present used
    rw [if_pos used, kept]
    cases keyPath with
    | none => exact absurd (by simp [trim]) (present used)
    | some path => simp [used]
  · rw [if_neg used]
    cases keyPath with
    | none => simp
    | some path => simp [used]

/-- The other overrides stay, and the one of the form does unless it asks for the default. -/
theorem overrides_kept_iff (overrides : HostOverrides) :
    Form.withReconnect overrides (overrides.reconnectEnabled != some false) = overrides ↔
      overrides.reconnectEnabled ≠ some true := by
  obtain ⟨term, keepaliveSecs, keepaliveMax, timeout, window, enabled, attempts⟩ := overrides
  cases enabled with
  | none => simp [Form.withReconnect]
  | some on => cases on <;> simp [Form.withReconnect]

/-- One slot holds every fallback when there is one at most. -/
theorem toList_head?_iff (kinds : List AuthKind) :
    kinds.head?.toList = kinds ↔ kinds.length ≤ 1 := by
  match kinds with
  | [] => simp
  | [kind] => simp
  | first :: second :: rest => simp

/-- What is submitted is the host exactly when each of the form's fields puts it back. -/
theorem fields_eq_iff {port : UInt16} {host : NewHostDto} : form.fields port host = host ↔
    (if trim form.name = "" then trim form.hostname else trim form.name) = host.name ∧
    trim form.hostname = host.hostname ∧ port = host.port ∧ trim form.username = host.username ∧
    form.first = host.auth ∧ form.then_.toList = host.authFallbacks ∧
    (if form.usesKey then some (trim form.keyPath) |>.filter (· ≠ "") else none) = host.keyPath ∧
    Form.withReconnect host.overrides form.reconnect = host.overrides := by
  obtain ⟨folderId, name, hostname, served, username, auth, fallbacks, keyPath,
    overrides, proxyJump, color, notes, tags⟩ := host
  simp only [Form.fields, NewHostDto.mk.injEq, true_and, and_true]

/-- The form submits the record it shows exactly when it can put it back. -/
theorem fields_iff {host : Host} (enabled : form.canSave = true) (shows : Shows host form) :
    form.fields host.port (hostDto host).toNewHostDto = (hostDto host).toNewHostDto ↔
      Plain host := by
  obtain ⟨addressed, unblocked⟩ : trim form.hostname ≠ "" ∧ form.keyBlocks = false := by
    simpa [Form.canSave] using enabled
  -- A form that asks for a key and can be saved has a path.
  have present : form.usesKey = true → trim (host.keyPath.getD "") ≠ "" := by
    intro uses empty
    simp [Form.keyBlocks, uses, shows.keyPath, empty] at unblocked
  rw [shows.hostname] at addressed
  rw [fields_eq_iff, shows.name, shows.hostname, shows.username, shows.then_, shows.keyPath,
    shows.reconnect]
  simp only [hostDto]
  rw [name_kept_iff addressed, keyPath_kept_iff present, overrides_kept_iff, toList_head?_iff]
  -- With one fallback at most, the methods of the form are those of the host.
  have uses : host.authFallbacks.length ≤ 1 →
      (form.usesKey = true ↔ .keyFile ∈ Desktop.chain host) := by
    intro short
    rw [← toList_head?_iff] at short
    simp only [Form.usesKey, Form.chain, toChain, shows.first, shows.then_, short, Desktop.chain,
      List.contains_iff_mem]
  constructor
  · rintro ⟨name, hostname, -, username, -, short, keyed, reconnect⟩
    exact ⟨name, hostname, username, short,
      fun path given => ⟨(uses short).mp (keyed path given).1, (keyed path given).2⟩, reconnect⟩
  · intro plain
    exact ⟨plain.name, plain.hostname, trivial, plain.username, shows.first, plain.fallbacks,
      fun path given => ⟨(uses plain.fallbacks).mpr (plain.keyPath path given).1,
        (plain.keyPath path given).2⟩, plain.reconnect⟩

/-- Nothing was typed, so the stored secret stays unless there is no more use for it. -/
theorem secretUpdate_iff {host : Host} (shows : Shows host form) :
    form.secretUpdate (hostDto host) = .unchanged ↔
      host.secretRef = none ∨ form.wantsSecret = true := by
  -- With nothing typed, a form that still wants a secret leaves the stored one alone.
  have untyped : form.typed = none := by simp [Form.typed, shows.secret]
  unfold Form.secretUpdate
  by_cases wanted : form.wantsSecret = true
  · simp [wanted, untyped]
  · cases stored : host.secretRef with
    | none => simp [wanted, hostDto, stored]
    | some account => simp [wanted, hostDto, stored]

variable {state : AppState} {host : Host}

/-- An update that puts a record back leaves everything but the time of its last change. -/
theorem updateHost_same (reachable : Reachable state.db)
    (shown : get state.db host.id = .ok (some host)) (now : Int) (faults : Faults) :
    ∃ after, updateHost now faults state (hostDto host).toHostDto .unchanged = (after, .ok ()) ∧
      after.keyring = state.keyring ∧
      get after.db host.id = .ok (some { host with updatedAt := now }) ∧
      ∀ other, other ≠ host.id → get after.db other = get state.db other := by
  have keys := reachable.tagKeys
  have present : Present state.db host.id := present_of_get shown
  obtain ⟨middle, updated⟩ := update_of_accepted now present (reachable.intact.accepted shown).2
  -- The update writes what was read, but for the time.
  have again : get middle host.id = .ok (some { host with updatedAt := now }) :=
    get_update_of_get updated shown
  have attached : ({ host with updatedAt := now } : Host).tags = tagsFor middle host.id :=
    tags_of_get again
  dsimp only at attached
  -- The tags are there, since the host has them.
  have known : TagsKnown middle host.tags := by
    rw [tagsKnown_update updated]
    intro tag member
    rw [tags_of_get shown, mem_tagsFor_iff] at member
    obtain ⟨named, there, same⟩ := keys.known _ member
    exact List.any_eq_true.mpr ⟨named, there, by simpa using same⟩
  obtain ⟨final, done⟩ := (setTags_iff (present_of_get again) host.tags).mpr known
  -- Its tags are given as they are already.
  have tagged : ∀ other, get final other = get middle other := by
    rw [attached] at done
    exact (keys.update updated).get_setTags done
  refine ⟨{ state with db := final }, ?_, rfl, by rw [tagged, again], fun other apart => ?_⟩
  · have same : edited host (hostDto host).toHostDto = host := rfl
    have named : (hostDto host).toHostDto.id = host.id := rfl
    have listed : (hostDto host).toHostDto.tags = host.tags := rfl
    unfold updateHost
    rw [named, shown]
    dsimp only
    rw [same, updated, listed]
    dsimp only
    rw [done]
  · rw [tagged, get_update_apart updated apart]

/--
Saving an edit form that was not touched changes nothing.

Whatever the inspections of the key answer meanwhile, it submits the record that it shows exactly
when the record is plain, and keeps the stored secret exactly when there is none or it is still
used. The record is then as before, but for the time of its last change, and so is every other.
-/
theorem untouched_edit_changes_nothing (number : String → Option UInt16)
    (verifyKeyPassphrase : String → Option String → Bool) (reachable : Reachable state.db)
    (shown : get state.db host.id = .ok (some host)) {events : List FormEvent}
    {command : StoreCommand} (inspections : ∀ event ∈ events, event.Inspects)
    (ran : System.run formStep (Form.open_ (some (hostDto host))) events = some form)
    (saved : form.save number verifyKeyPassphrase = some command) :
    ∃ dto secret, command = .updateHost dto secret ∧
      (dto = (hostDto host).toHostDto ↔ Plain host) ∧
      (secret = .unchanged ↔ host.secretRef = none ∨ form.wantsSecret = true) ∧
      (dto = (hostDto host).toHostDto → secret = .unchanged → ∀ now faults, ∃ after,
        updateHost now faults state dto secret = (after, .ok ()) ∧
          after.keyring = state.keyring ∧
          get after.db host.id = .ok (some { host with updatedAt := now }) ∧
          ∀ other, other ≠ host.id → get after.db other = get state.db other) := by
  have meets : System.Meets formStep (fun _ event => event.Inspects)
      (Form.open_ (some (hostDto host))) events :=
    System.meets_of_mem (fun _ event member => inspections event member) _
  -- Inspections leave what is shown of the record.
  have shows : Shows host form :=
    System.run_invariant (fun inspects shows taken => shows_step shows inspects taken) meets
      (shows_open host) ran
  obtain ⟨enabled, -, port, read, rfl⟩ := save_eq_some saved
  -- The port is read back, since the schema lets no port be zero.
  have served : host.port ≠ 0 :=
    (rowValid_rowOf_iff.mp (checkRow_eq_ok_iff.mp (reachable.intact.accepted shown).2).1).1
  rw [shows.port, portOf_toString served] at read
  cases read
  refine ⟨{ form.fields host.port (hostDto host).toNewHostDto with id := host.id },
    form.secretUpdate (hostDto host), ?_, ?_, secretUpdate_iff shows, ?_⟩
  · rw [Form.command, shows.editing]
    rfl
  · rw [← fields_iff enabled shows]
    constructor
    · intro same
      exact congrArg HostDto.toNewHostDto same
    · intro same
      rw [same]
      rfl
  · intro same kept now faults
    rw [same, kept]
    exact updateHost_same reachable shown now faults

/-- A host with a stored passphrase is saved as it is once its key is known to be encrypted. -/
theorem key_host_saved_unchanged :
    ∃ state host form, get state.db 1 = .ok (some host) ∧ host.secretRef.isSome ∧
      System.run formStep (Form.open_ (some (hostDto host)))
        [.timerFires, .inspected 0 (.ok ⟨.openSsh, true, none, none, none⟩)] = some form ∧
      form.save (fun _ => none) (fun _ _ => false) =
        some (.updateHost (hostDto host).toHostDto .unchanged) ∧
      ∃ after, updateHost 9 Faults.none state (hostDto host).toHostDto .unchanged =
        (after, .ok ()) ∧ get after.db 1 = .ok (some { host with updatedAt := 9 }) := by
  -- The store and the form are evaluated, and the theorem says what the save changes.
  obtain ⟨db, host, form, made, shown, named, stored, ran, saved⟩ :
      ∃ db host form, System.run storeStep Database.fresh
        [(7, .createHost ⟨none, "web", "web.example", 22, "me", .keyFile, [.agent],
          some "host/1/passphrase", some "/k", .default, none, .manual, none, none,
          none⟩)] = some db ∧ get db 1 = .ok (some host) ∧ host.id = 1 ∧
        host.secretRef.isSome ∧
        System.run formStep (Form.open_ (some (hostDto host)))
          [.timerFires, .inspected 0 (.ok ⟨.openSsh, true, none, none, none⟩)] = some form ∧
        form.save (fun _ => none) (fun _ _ => false) =
          some (.updateHost (hostDto host).toHostDto .unchanged) :=
    ⟨_, _, _, rfl, rfl, rfl, rfl, rfl, rfl⟩
  let state : AppState := ⟨db, fun _ => none, []⟩
  -- Nothing but the inspection of the key happens to the form.
  have inspections : ∀ event ∈ [FormEvent.timerFires,
      .inspected 0 (.ok ⟨.openSsh, true, none, none, none⟩)], event.Inspects := by
    simp [FormEvent.Inspects]
  obtain ⟨dto, secret, submitted, -, -, unchanged⟩ :=
    @untouched_edit_changes_nothing form state host (fun _ => none) (fun _ _ => false) ⟨_, made⟩
      (named.symm ▸ shown) _ _ inspections ran saved
  cases submitted
  obtain ⟨after, done, -, kept, -⟩ := unchanged rfl rfl 9 Faults.none
  exact ⟨state, host, form, shown, stored, ran, saved, after, done, named ▸ kept⟩

end Untouched

end Tern.HostForm
