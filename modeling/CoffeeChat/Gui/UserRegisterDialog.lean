import CoffeeChat.Core.UserManager
import CoffeeChat.Gui.LoginDialog

/-!
# The dialog for a new account

An account is made over HTTP, with an object of JSON texts, and a login goes over the connection,
with a frame around a protobuf message. The two meet at the server only: a user who logs in with
the texts of a registration has to be the account that was registered. In every run whose logins
come from the login dialog that is so (`always_registeredAlike`): the name and the digest that the
peer reads in the login request are those that the register dialog posts for the texts with which
this login was made.
-/

namespace CoffeeChat

open Lib Lib.Effect Lib.WireFormat Pb

/-- `UserRegisterDialog`, by its line edits. -/
structure UserRegisterDialog where
  leEmail : QLineEdit
  lePwd : QLineEdit
  leNick : QLineEdit

/-- The box that a click opens. -/
inductive RegisterBox where
  | tips (text : String)
  /-- `"注册成功"`; the dialog is accepted. -/
  | success
  | failure (text : Bytes)

namespace UserRegisterDialog

/-- What is made of the result of `registerUser`, with the `res` it has filled. -/
def told (registered : Option Bool) : Program Caller RegisterBox := do
  if registered = some true then
    return .success
  else
    return .failure ("注册失败：".toUTF8.toList ++ (← get).out.msg)

/-- `UserRegisterDialog::on_pbOk_clicked()`. -/
def onPbOkClicked (qt : Qt) (services : Services) (server : ServerInfoConfig) (memory : MD5 .lp64)
    (dialog : UserRegisterDialog) : Program Caller RegisterBox := do
  if ¬ qt.Accepts dialog.leEmail.text then
    return .tips "邮箱格式不正确"
  else if dialog.lePwd.text.length ≤ 3 then
    return .tips "请输入至少3位密码"
  else
    let registered ← UserManager.registerUser services server memory
      (qt.toStdString dialog.leEmail.text) (qt.toStdString dialog.lePwd.text)
      (qt.toStdString dialog.leNick.text)
    told registered

/-- The reply to the registration of an account. -/
def registration (services : Services) (server : ServerInfoConfig) (userName userPwd nick : Bytes) :
    Response :=
  services.post (UserManager.url server UserManager.kUrlRegisterUser) UserManager.contentType
    (services.dump [
      (asciiBytes "userName".toList, userName),
      (asciiBytes "userNickName".toList, nick),
      (asciiBytes "userPwd".toList, userPwd)])

/-- A click on texts that pass the checks posts the name and the digest of the password, and says
what the reply says. -/
theorem onPbOkClicked_eq {qt : Qt} {dialog : UserRegisterDialog} {md5 : List Char}
    (hemail : ∃ a : Address, a.text = dialog.leEmail.text) (hpwd : 3 < dialog.lePwd.text.length)
    (hmd5 : MD5.hash (MD5.zeroed .lp64) (qt.toStdString dialog.lePwd.text) = .ok md5)
    (services : Services) (server : ServerInfoConfig) (memory : MD5 .lp64) :
    dialog.onPbOkClicked qt services server memory =
      UserManager.handleReply services
        (registration services server (qt.toStdString dialog.leEmail.text) (asciiBytes md5)
          (qt.toStdString dialog.leNick.text))
        (fun _ ↦ return some true) (some false) >>= told := by
  have hlt := (LoginDialog.pwd qt dialog.lePwd).length_lt
  have hdigest : memory.hash (qt.toStdString dialog.lePwd.text) = .ok md5 :=
    (MD5.hash_eq memory hlt).trans ((MD5.hash_eq (MD5.zeroed .lp64) hlt).symm.trans hmd5)
  have hregister : UserManager.registerUser services server memory
      (qt.toStdString dialog.leEmail.text) (qt.toStdString dialog.lePwd.text)
      (qt.toStdString dialog.leNick.text) =
        UserManager.handleReply services
          (registration services server (qt.toStdString dialog.leEmail.text) (asciiBytes md5)
            (qt.toStdString dialog.leNick.text))
          (fun _ ↦ return some true) (some false) := by
    rw [UserManager.registerUser, UserManager.registerReply, hdigest]
    rfl
  rw [onPbOkClicked, if_neg (not_not.mpr (qt.accepts_iff.mpr hemail)), if_neg (not_le.mpr hpwd),
    hregister]

end UserRegisterDialog

namespace Session

/-- A click in the register dialog on the texts with which the login was made posts what the login
request has: the name and the digest. -/
def RegisteredAs (qt : Qt) (args : LoginArgs) : Prop :=
  ∀ (dialog : LoginDialog) (register : UserRegisterDialog) services server (memory : MD5 .lp64),
    dialog.Made qt args → register.leEmail.text = dialog.leUserName.text →
      register.lePwd.text = dialog.lePwd.text →
        register.onPbOkClicked qt services server memory =
          UserManager.handleReply services
            (UserRegisterDialog.registration services server args.request.userName
              args.request.userPwd (qt.toStdString register.leNick.text))
            (fun _ ↦ return some true) (some false) >>= UserRegisterDialog.told

/-- Over a connection that is up the peer reads the request of the last login, a click in the login
dialog made that login, and the register dialog posts the same for the texts it was made with. -/
def RegisteredAlike (rt : Reader) (qt : Qt) (asked : List Asked) (s : Session) : Prop :=
  ∀ tcp, s.client.tcpClient = some tcp → tcp.connectStatus = .kConnectOk →
    ∃ args after, LastLogin asked args after ∧ (∃ dialog : LoginDialog, dialog.Made qt args) ∧
      RegisteredAs qt args ∧ ∃ b result rest, tcp.sent = (b, result) :: rest ∧
        (codec rt (Pb.CIMAuthReq rt)).parseFromArray (b.drop sizeofIMHeader) =
          some (ofAuthReq args.request)

theorem registeredAs (qt : Qt) (args : LoginArgs) : RegisteredAs qt args := by
  intro dialog register services server memory hmade hemail hpwd
  obtain ⟨haddress, hlong, hargs⟩ := LoginDialog.onPushButtonClicked_eq_login.mp hmade
  have hmd5 := MD5.hash_eq (MD5.zeroed .lp64) args.pwd.length_lt
  have hdigest : args.request.userPwd = _ := args.digest_of_hash hmd5
  have hname : args.request.userName = qt.toStdString register.leEmail.text := by
    rw [hemail, LoginArgs.request, hargs]
  have htyped : args.pwd.bytes = qt.toStdString register.lePwd.text := by
    rw [hpwd, hargs]
    rfl
  rw [htyped] at hmd5
  rw [← hemail] at haddress
  rw [← hpwd] at hlong
  rw [UserRegisterDialog.onPbOkClicked_eq haddress hlong hmd5, hname, hdigest, htyped]

theorem registeredAlike {rt : Reader} {qt : Qt} {asked : List Asked} {s : Session}
    (h : s.Greeted asked) (hdialog : Keeps (ApiCall.FromDialog qt) asked) :
    s.RegisteredAlike rt qt asked := by
  intro tcp htcp hup
  obtain ⟨args, after, hlast, hof⟩ := h tcp htcp
  obtain ⟨env, hlogin⟩ := hlast.mem
  obtain ⟨dialog, hmade⟩ : ∃ dialog : LoginDialog, dialog.Made qt args := hdialog env _ hlogin
  refine ⟨args, after, hlast, ⟨dialog, hmade⟩, registeredAs qt args, ?_⟩
  obtain ⟨htext, hshort⟩ := hmade.isText
  have hlt : args.request.toLite.byteSizeLong < 2 ^ 30 := by
    have hlen := args.length_request_le
    omega
  obtain ⟨b, result, rest, hsent, hread, _⟩ := requestUnderstood hof hup hlt
  exact ⟨b, result, rest, hsent, hread htext⟩

/-- In every run whose logins come from the login dialog, the peer reads the first buffer over a
connection as the login of the account that the register dialog makes of the texts that this login
was made with, for any server and any answer. -/
theorem always_registeredAlike (rt : Reader) (qt : Qt) {inputs : List (Host × Event)}
    (hdialog : ∀ input ∈ inputs, Allows (ApiCall.FromDialog qt) input) :
    Run.Always (fun r ↦ RegisteredAlike rt qt r.log r.state) Record.step Record.fresh inputs := by
  have hgreeted := Greeted.said.always_of_any (.of_none rfl) inputs
  exact (hgreeted.and (always_keeps hdialog)).mono fun _ hr ↦ registeredAlike hr.1 hr.2

/-- A login of the dialog, and its connection. -/
theorem always_registeredAlike_plain :
    Run.Always (fun r ↦ RegisteredAlike reader Qt.plain r.log r.state) Record.step Record.fresh
      [(Host.plain 0, .call (.login LoginDialog.plainArgs)),
        (Host.plain 0, .connection 1 .kConnectOk)] := by
  refine always_registeredAlike reader Qt.plain fun input hinput ↦ ?_
  simp only [List.mem_cons, List.not_mem_nil, or_false] at hinput
  rcases hinput with rfl | rfl
  · refine .plain fun call hcall ↦ ?_
    cases hcall
    exact ⟨LoginDialog.plain, LoginDialog.made_plain⟩
  · exact .plain fun call hcall ↦ by cases hcall

end Session

end CoffeeChat
