import CoffeeChat.Lib.Regex
import CoffeeChat.Pb.Understood

/-!
# The login dialog

The window in which the user types an e-mail address and a password. `login` takes any bytes for a
user name, also such that no peer understands; the dialog is what stands before it in the
application. Its pattern accepts exactly the texts of addresses, and each address in one way only
(`clicked_login_iff`). So a login that the dialog makes is one of a text, and short enough for a
peer to read (`Made.isText`).

Of Qt the model takes that a line edit holds at most 32767 code units, that a validator finds
acceptable what its pattern matches as a whole, and two facts on the encoder (`Qt`).
-/

namespace CoffeeChat

open Lib Lib.Regex Pb

/-- A `QString`, by its UTF-16 code units. -/
abbrev QString := List UInt16

/-- A `QLineEdit`: its text is no longer than the default of `maxLength`. -/
structure QLineEdit where
  text : QString
  length_le : text.length ≤ 32767

/-- `QValidator::State`. -/
inductive QValidatorState where
  | Invalid
  | Intermediate
  | Acceptable
  deriving DecidableEq

/-- What the dialogs call in Qt. A validator finds acceptable what its pattern matches as a whole.
The encoder into UTF-8 keeps ASCII and takes three bytes for a code unit at most. -/
structure Qt where
  /-- `QRegExpValidator::validate`. -/
  validate : RegularExpression UInt16 → QString → QValidatorState
  /-- `QString::toStdString`. -/
  toStdString : QString → Bytes
  validate_iff : ∀ pattern text, validate pattern text = .Acceptable ↔ text ∈ pattern.matches'
  ascii : ∀ text : QString, (∀ c ∈ text, c.toNat < 0x80) →
    toStdString text = text.map UInt16.toUInt8
  length_le : ∀ text : QString, (toStdString text).length ≤ 3 * text.length

/-! ## The pattern -/

/-- `[a-zA-Z0-9_-]`. -/
def wordClass : List UInt16 :=
  (List.range' 0x61 26 ++ List.range' 0x41 26 ++ List.range' 0x30 10 ++ [0x5f, 0x2d]).map
    UInt16.ofNat

/-- The code unit of `@`. -/
def atSign : UInt16 := 0x40

/-- The code unit of `.`. -/
def dot : UInt16 := 0x2e

/-- `^[a-zA-Z0-9_-]+@[a-zA-Z0-9_-]+(\.[a-zA-Z0-9_-]+)+$`. -/
def regx : RegularExpression UInt16 :=
  oneOrMore (oneOf wordClass) * (.char atSign * (oneOrMore (oneOf wordClass) *
    oneOrMore (.char dot * oneOrMore (oneOf wordClass))))

/-- `email_validator_->validate` finds the text acceptable. -/
def Qt.Accepts (qt : Qt) (text : QString) : Prop := qt.validate regx text = .Acceptable

instance (qt : Qt) (text : QString) : Decidable (qt.Accepts text) :=
  inferInstanceAs (Decidable (_ = _))

/-! ## The dialog -/

/-- `LoginDialog`, by the line edits for the user name and the password. -/
structure LoginDialog where
  leUserName : QLineEdit
  lePwd : QLineEdit

/-- What a click leads to: a box with a text, or a login. -/
inductive Clicked where
  | information (text : String)
  | login (args : LoginArgs)

namespace LoginDialog

/-- The callback bound to `onLoginResult`. -/
def onLoginResult : CallbackId := 1

/-- The callback bound to `onLoginTimeout`. -/
def onLoginTimeout : CallbackId := 2

/-- A password typed into a line edit fits into memory. -/
def pwd (qt : Qt) (edit : QLineEdit) : Input .lp64 where
  bytes := qt.toStdString edit.text
  length_lt := by
    have hbytes := qt.length_le edit.text
    have hunits := edit.length_le
    show _ < 2 ^ 63
    omega

/-- `LoginDialog::on_pushButton_clicked()`, with what `time` and `TcpClient::connect` return inside
the login. -/
def onPushButtonClicked (qt : Qt) (now : UInt64) (connected : Bool) (dialog : LoginDialog) :
    Clicked :=
  if ¬ qt.Accepts dialog.leUserName.text then
    .information "邮箱格式不正确"
  else if dialog.lePwd.text.length ≤ 3 then
    .information "请输入至少3位密码"
  else
    .login {
      userName := qt.toStdString dialog.leUserName.text
      pwd := pwd qt dialog.lePwd
      cb := some onLoginResult
      timeoutCb := some onLoginTimeout
      now, connected }

end LoginDialog

/-! ## Addresses -/

/-- An e-mail address, as the pattern has it: a name, and a domain of two labels or more. -/
structure Address where
  name : QString
  host : QString
  labels : List QString
  name_word : IsWord wordClass name
  host_word : IsWord wordClass host
  labels_word : ∀ w ∈ labels, IsWord wordClass w
  dotted : labels ≠ []

/-- The text of an address. -/
def Address.text (a : Address) : QString :=
  a.name ++ atSign :: (a.host ++ a.labels.flatMap (dot :: ·))

/-- A code unit of a word is ASCII, and neither `@` nor `.`. -/
theorem of_mem_wordClass {c : UInt16} (h : c ∈ wordClass) :
    c.toNat < 0x80 ∧ c ≠ atSign ∧ c ≠ dot := by
  obtain ⟨n, hn, rfl⟩ := List.mem_map.mp h
  have hcases : 0x61 ≤ n ∧ n < 0x7b ∨ 0x41 ≤ n ∧ n < 0x5b ∨ 0x30 ≤ n ∧ n < 0x3a ∨
      n = 0x5f ∨ n = 0x2d := by
    simpa [or_assoc] using hn
  have hval : (UInt16.ofNat n).toNat = n := by
    rw [UInt16.toNat_ofNat', Nat.mod_eq_of_lt (by omega)]
  have hat : atSign.toNat = 0x40 := rfl
  have hdot : dot.toNat = 0x2e := rfl
  rw [← UInt16.toNat_inj.ne, ← UInt16.toNat_inj.ne, hval, hat, hdot]
  omega

theorem word_ascii {w : QString} (hw : IsWord wordClass w) : ∀ c ∈ w, c.toNat < 0x80 :=
  fun c hc ↦ (of_mem_wordClass (hw.2 c hc)).1

theorem atSign_notMem {w : QString} (hw : IsWord wordClass w) : atSign ∉ w :=
  fun hc ↦ (of_mem_wordClass (hw.2 atSign hc)).2.1 rfl

theorem dot_notMem {w : QString} (hw : IsWord wordClass w) : dot ∉ w :=
  fun hc ↦ (of_mem_wordClass (hw.2 dot hc)).2.2 rfl

/-- An address is ASCII. -/
theorem Address.ascii (a : Address) : ∀ c ∈ a.text, c.toNat < 0x80 := by
  intro c hc
  rcases List.mem_append.mp hc with hc | hc
  · exact word_ascii a.name_word c hc
  rcases List.mem_cons.mp hc with rfl | hc
  · decide
  rcases List.mem_append.mp hc with hc | hc
  · exact word_ascii a.host_word c hc
  obtain ⟨w, hw, hc⟩ := List.mem_flatMap.mp hc
  rcases List.mem_cons.mp hc with rfl | hc
  · decide
  · exact word_ascii (a.labels_word w hw) c hc

/-- Different addresses have different texts. -/
theorem Address.text_injective : Function.Injective Address.text := by
  rintro ⟨name, host, labels, hname, hhost, hlabels, _⟩ ⟨name', host', labels', hname', hhost',
    hlabels', _⟩ h
  obtain ⟨rfl, hrest⟩ := append_sep_inj (atSign_notMem hname) (atSign_notMem hname') h
  obtain ⟨rfl, rfl⟩ := separated_inj (dot_notMem hhost) (dot_notMem hhost')
    (fun w hw ↦ dot_notMem (hlabels w hw)) (fun w hw ↦ dot_notMem (hlabels' w hw)) hrest
  rfl

/-- The validator accepts the texts of addresses. -/
theorem Qt.accepts_iff {qt : Qt} {text : QString} :
    qt.Accepts text ↔ ∃ a : Address, a.text = text := by
  refine (qt.validate_iff regx text).trans ⟨?_, ?_⟩
  · rintro ⟨name, hname, _, ⟨_, rfl, _, ⟨host, hhost, _, hlabels, rfl⟩, rfl⟩, rfl⟩
    obtain ⟨labels, hne, hwords, rfl⟩ := mem_separated.mp hlabels
    exact ⟨⟨name, host, labels, mem_word.mp hname, mem_word.mp hhost, hwords, hne⟩, rfl⟩
  · rintro ⟨a, rfl⟩
    have hlabels : a.labels.flatMap (dot :: ·) ∈
        (oneOrMore (.char dot * oneOrMore (oneOf wordClass))).matches' :=
      mem_separated.mpr ⟨a.labels, a.dotted, a.labels_word, rfl⟩
    exact ⟨a.name, mem_word.mpr a.name_word, _, ⟨[atSign], rfl, _, ⟨a.host,
      mem_word.mpr a.host_word, _, hlabels, rfl⟩, rfl⟩, rfl⟩

/-! ## What is typed -/

namespace LoginDialog

variable {qt : Qt} {now : UInt64} {connected : Bool} {dialog : LoginDialog}

/-- A click logs in when the text is that of an address and the password has four units or more. -/
theorem onPushButtonClicked_eq_login {args : LoginArgs} :
    dialog.onPushButtonClicked qt now connected = .login args ↔
      (∃ a : Address, a.text = dialog.leUserName.text) ∧ 3 < dialog.lePwd.text.length ∧
        args = ⟨qt.toStdString dialog.leUserName.text, pwd qt dialog.lePwd, some onLoginResult,
          some onLoginTimeout, now, connected⟩ := by
  rw [onPushButtonClicked, ← qt.accepts_iff]
  split
  case isTrue hbad => simp [hbad]
  case isFalse hgood =>
    split
    case isTrue hshort => simp [hshort]
    case isFalse hlong =>
      rw [not_not] at hgood
      simp [hgood, not_le.mp hlong, eq_comm]

/-- A click logs in exactly when the user name can be read as an address, in one way then, and the
password has four code units or more. Three are too few, though the box that opens then asks for
three. -/
theorem clicked_login_iff (qt : Qt) (now : UInt64) (connected : Bool) (dialog : LoginDialog) :
    ((∃ args, dialog.onPushButtonClicked qt now connected = .login args) ↔
      (∃! a : Address, a.text = dialog.leUserName.text) ∧ 3 < dialog.lePwd.text.length) ∧
    ((∃ a : Address, a.text = dialog.leUserName.text) → dialog.lePwd.text.length = 3 →
      dialog.onPushButtonClicked qt now connected = .information "请输入至少3位密码") := by
  refine ⟨⟨?_, ?_⟩, fun haddress hthree ↦ ?_⟩
  · rintro ⟨args, hargs⟩
    obtain ⟨⟨a, ha⟩, hpwd, _⟩ := onPushButtonClicked_eq_login.mp hargs
    exact ⟨⟨a, ha, fun b hb ↦ Address.text_injective (hb.trans ha.symm)⟩, hpwd⟩
  · rintro ⟨⟨a, ha, _⟩, hpwd⟩
    exact ⟨_, onPushButtonClicked_eq_login.mpr ⟨⟨a, ha⟩, hpwd, rfl⟩⟩
  · rw [onPushButtonClicked, if_neg (not_not.mpr (qt.accepts_iff.mpr haddress)),
      if_pos (le_of_eq hthree)]

/-- A click on the login button of the dialog made the login. -/
def Made (qt : Qt) (dialog : LoginDialog) (args : LoginArgs) : Prop :=
  dialog.onPushButtonClicked qt args.now args.connected = .login args

/-- The user name of such a login is the text of an address, each code unit a byte. -/
theorem Made.userName {args : LoginArgs} (h : Made qt dialog args) : ∃ a : Address,
    a.text = dialog.leUserName.text ∧ args.userName = a.text.map UInt16.toUInt8 := by
  obtain ⟨⟨a, ha⟩, _, hargs⟩ := onPushButtonClicked_eq_login.mp h
  refine ⟨a, ha, ?_⟩
  rw [hargs, ← ha]
  exact qt.ascii a.text a.ascii

/-- It is a text, of 32767 bytes at most. -/
theorem Made.isText {args : LoginArgs} (h : Made qt dialog args) :
    WireFormat.IsText args.userName ∧ args.userName.length ≤ 32767 := by
  obtain ⟨a, ha, hname⟩ := h.userName
  rw [hname]
  refine ⟨.of_ascii fun b hb ↦ ?_, ?_⟩
  · obtain ⟨c, hc, rfl⟩ := List.mem_map.mp hb
    have hlt := a.ascii c hc
    rw [UInt16.toNat_toUInt8]
    omega
  · rw [List.length_map, ha]
    exact dialog.leUserName.length_le

end LoginDialog

/-- The call, if it is a login, was made by the dialog. -/
def ApiCall.FromDialog (qt : Qt) (_ : Env) : ApiCall → Prop
  | .login args => ∃ dialog : LoginDialog, dialog.Made qt args
  | _ => True

/-! ## A user at the dialog -/

/-- A validator that looks for whole matches only, and an encoder that knows ASCII only and writes
`?` for all else. -/
def Qt.plain : Qt where
  validate pattern text := if pattern.rmatch text then .Acceptable else .Invalid
  toStdString text := text.map fun c ↦ if c.toNat < 0x80 then c.toUInt8 else 0x3f
  validate_iff pattern text := by
    rw [← RegularExpression.rmatch_iff_matches']
    split
    case isTrue h => simp [h]
    case isFalse h => simp [h]
  ascii text h := by
    refine List.map_congr_left fun c hc ↦ ?_
    rw [if_pos (h c hc)]
  length_le text := by
    rw [List.length_map]
    omega

/-- The user types `a@b.c` and `abcd`. -/
def LoginDialog.plain : LoginDialog where
  leUserName := ⟨[0x61, atSign, 0x62, dot, 0x63], by decide⟩
  lePwd := ⟨[0x61, 0x62, 0x63, 0x64], by decide⟩

/-- The login that a click makes of it. -/
def LoginDialog.plainArgs : LoginArgs where
  userName := asciiBytes "a@b.c".toList
  pwd := ⟨asciiBytes "abcd".toList, by decide⟩
  cb := some onLoginResult
  timeoutCb := some onLoginTimeout
  now := 0
  connected := true

theorem LoginDialog.made_plain : LoginDialog.plain.Made Qt.plain LoginDialog.plainArgs := by
  refine onPushButtonClicked_eq_login.mpr ⟨?_, ?_, ?_⟩
  · exact ⟨⟨[0x61], [0x62], [[0x63]], by decide, by decide, by decide, by decide⟩, rfl⟩
  · decide
  · rfl

end CoffeeChat
