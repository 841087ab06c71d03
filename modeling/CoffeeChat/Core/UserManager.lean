import CoffeeChat.Core.Messages
import CoffeeChat.Crypt.MD5Correct
import CoffeeChat.Db.ConfigDao

/-!
# Registering over HTTP

`UserManager::registerUser` and `UserManager::generateNickName` of `core/user_manager.cpp`. Both
take an HTTP reply apart in the same way (`handleReply`) and differ in what a reply without an error
gives. `register_handled_iff` and `nickName_handled_iff` say which replies they handle: they return
a result that is right, and if it is false, an error.

The HTTP client and the JSON library are parameters. Of a text that is not JSON `parse` throws, as
does `operator[]` with a key on what is neither an object nor null, and `get` on a value of another
type. The integer a `get<int>()` finds is cut to an `int`; whether it also takes a boolean or a
number with a fraction, and for which `int`, is left open.
-/

namespace CoffeeChat

open Lib Lib.Effect

/-- A `nlohmann::json` value. -/
inductive Json where
  | null
  | boolean (value : Bool)
  | integer (value : Int)
  /-- A number with a fraction or an exponent, as text. -/
  | float (value : Bytes)
  | string (value : Bytes)
  | array (elements : List Json)
  /-- The members by their keys. -/
  | object (members : List (Bytes × Json))

namespace Json

/-- `value[key]`; nothing if it throws. A missing member is null. -/
def index (key : Bytes) : Json → Option Json
  | .object members => some (((Keyed.find Prod.fst members key).map Prod.snd).getD .null)
  | .null => some .null
  | .boolean _ | .integer _ | .float _ | .string _ | .array _ => none

/-- `get<int>()`; nothing if it throws. Booleans and fractions are left to `convert`. -/
def getInt (convert : Json → Option Int32) : Json → Option Int32
  | .integer value => some (Int32.ofInt value)
  | .boolean value => convert (.boolean value)
  | .float value => convert (.float value)
  | .null | .string _ | .array _ | .object _ => none

/-- `get<std::string>()`; nothing if it throws. -/
def getString : Json → Option Bytes
  | .string value => some value
  | .null | .boolean _ | .integer _ | .float _ | .array _ | .object _ => none

end Json

/-- `RestClient::Response`. -/
structure Response where
  code : Int32
  body : Bytes
  deriving DecidableEq, Repr

/-- What the functions use of the HTTP client and of the JSON library. -/
structure Services where
  /-- `RestClient::post(url, contentType, data)`. -/
  post : Bytes → Bytes → Bytes → Response
  /-- `RestClient::get(url)`. -/
  get : Bytes → Response
  /-- `json::parse(text)`; nothing if it throws. -/
  parse : Bytes → Option Json
  /-- `get<int>()` of a boolean or of a number with a fraction; nothing if it throws. -/
  convert : Json → Option Int32
  /-- `dump()` of an object with these strings as its members. -/
  dump : List (Bytes × Bytes) → Bytes

/-- `HttpResponseBase`. -/
structure HttpResponseBase where
  code : Int32
  msg : Bytes
  deriving DecidableEq, Repr

/-- The objects the caller passes by reference. -/
structure Caller where
  out : HttpResponseBase
  randomNick : Bytes
  deriving DecidableEq, Repr

namespace UserManager

/-! ## Texts -/

/-- `kUrlRegisterUser`. -/
def kUrlRegisterUser : Bytes := asciiBytes "/user/register".toList

/-- `kUrlGenerateNickName`. -/
def kUrlGenerateNickName : Bytes := asciiBytes "/user/nickname/generate".toList

/-- `kGenerateNickNameVersion`. -/
def kGenerateNickNameVersion : Bytes := asciiBytes "1".toList

/-- The content type of a request. -/
def contentType : Bytes := asciiBytes "application/json; charset=utf-8".toList

/-- The message for a reply with another status than 200. -/
def serverUnavailable : Bytes := asciiBytes "server unavailable".toList

def keyErrorCode : Bytes := asciiBytes "error_code".toList
def keyErrorMsg : Bytes := asciiBytes "error_msg".toList
def keyNickName : Bytes := asciiBytes "nick_name".toList

/-- `"http://" + ip + ":" + std::to_string(httpPort) + path`. -/
def url (server : ServerInfoConfig) (path : Bytes) : Bytes :=
  asciiBytes "http://".toList ++ server.ip ++ asciiBytes ":".toList ++
    toString16 server.httpPort ++ path

/-! ## The functions -/

/-- A call into the JSON library that may throw. -/
def orThrow {α : Type} : Option α → Program Caller α
  | some a => pure a
  | none => throw .exception

/-- What both functions make of a reply: `succeeded` is the branch of a reply without an error and
`ended` what is returned behind the branches, `none` where there is no `return`. -/
def handleReply (services : Services) (res : Response)
    (succeeded : Json → Program Caller (Option Bool)) (ended : Option Bool) :
    Program Caller (Option Bool) := do
  if res.code ≠ 200 then
    modify fun caller ↦ { caller with out := ⟨kCIM_ERR_INTERNAL_ERROR, serverUnavailable⟩ }
    return some false
  else
    let value ← orThrow (services.parse res.body)
    match value with
    | .null => return ended
    | _ =>
      let code ← orThrow ((value.index keyErrorCode).bind (Json.getInt services.convert))
      modify fun caller ↦ { caller with out := { caller.out with code } }
      let msg ← orThrow ((value.index keyErrorMsg).bind Json.getString)
      modify fun caller ↦ { caller with out := { caller.out with msg } }
      if (← get).out.code = kCIM_ERR_SUCCESS then succeeded value
      else return some false

/-- The reply to `registerUser`; the password is sent as its digest. -/
def registerReply {m : DataModel} (services : Services) (server : ServerInfoConfig)
    (memory : MD5 m) (userName userPwd nickName : Bytes) : Result Response := do
  let pwd ← memory.hash userPwd
  return services.post (url server kUrlRegisterUser) contentType (services.dump [
    (asciiBytes "userName".toList, userName),
    (asciiBytes "userNickName".toList, nickName),
    (asciiBytes "userPwd".toList, asciiBytes pwd)])

/-- `UserManager::registerUser(userName, userPwd, nickName, out)`. -/
def registerUser {m : DataModel} (services : Services) (server : ServerInfoConfig)
    (memory : MD5 m) (userName userPwd nickName : Bytes) : Program Caller (Option Bool) :=
  match registerReply services server memory userName userPwd nickName with
  | .ok res => handleReply services res (fun _ ↦ return some true) (some false)
  | .error _ => throw .terminate

/-- The reply to `generateNickName`. -/
def nickNameReply (services : Services) (server : ServerInfoConfig) : Response :=
  services.get (url server kUrlGenerateNickName ++ asciiBytes "?version=".toList ++
    kGenerateNickNameVersion)

/-- `UserManager::generateNickName(random_nick, out)`. There is no `return` behind the branches. -/
def generateNickName (services : Services) (server : ServerInfoConfig) :
    Program Caller (Option Bool) :=
  handleReply services (nickNameReply services server)
    (fun value ↦ do
      let randomNick ← orThrow ((value.index keyNickName).bind Json.getString)
      modify ({ · with randomNick })
      return some true)
    none

/-! ## Replies -/

/-- The member of the reply's object under a key, if the reply is an object and has one. -/
def member (services : Services) (res : Response) (key : Bytes) : Option Json :=
  match services.parse res.body with
  | some (.object members) => (Keyed.find Prod.fst members key).map Prod.snd
  | _ => none

/-- The status is 200 and the body an object with an integer error code and a message. -/
def Reports (services : Services) (res : Response) (code : Int) (msg : Bytes) : Prop :=
  res.code = 200 ∧ member services res keyErrorCode = some (.integer code) ∧
    member services res keyErrorMsg = some (.string msg)

/-- The status is 200 and the body an object with a message and an error code that is read as
`code`. -/
def Reads (services : Services) (res : Response) (code : Int32) (msg : Bytes) : Prop :=
  res.code = 200 ∧
    (member services res keyErrorCode).bind (Json.getInt services.convert) = some code ∧
    member services res keyErrorMsg = some (.string msg)

/-- The reply to `registerUser` is one of success. -/
def RegisterSucceeds (services : Services) (res : Response) : Prop :=
  ∃ msg, Reports services res kCIM_ERR_SUCCESS.toInt msg

/-- The reply to `generateNickName` is one of success. -/
def NickNameSucceeds (services : Services) (res : Response) : Prop :=
  ∃ msg, Reports services res kCIM_ERR_SUCCESS.toInt msg ∧
    ∃ nick, member services res keyNickName = some (.string nick)

/-- The object says what is wrong with the reply: the server is unavailable, or the error is the one
the reply reports, or some other. -/
def Describes (services : Services) (res : Response) (out : HttpResponseBase) : Prop :=
  if res.code ≠ 200 then out = ⟨kCIM_ERR_INTERNAL_ERROR, serverUnavailable⟩
  else out.code ≠ kCIM_ERR_SUCCESS ∧ ∀ code msg, Reports services res code msg →
    code ≠ kCIM_ERR_SUCCESS.toInt → out.code.toInt = code ∧ out.msg = msg

/-- The function returns true or false; true exactly for a reply of success, and with false a
description of the failure and the nickname there was. -/
def Handled (services : Services) (res : Response) (succeeds : Prop)
    (x : Program Caller (Option Bool)) : Prop :=
  ∀ caller, ∃ b caller', x caller = .ok (some b) caller' ∧ (b = true ↔ succeeds) ∧
    (b = false → Describes services res caller'.out ∧ caller'.randomNick = caller.randomNick)

/-- The status is not 200, or there are an error code and a message to read: an integer that fits an
`int` or, if the code is not read as that of success, what else `get<int>()` takes. -/
def RegisterReadable (services : Services) (res : Response) : Prop :=
  res.code ≠ 200 ∨ ∃ code msg, Reads services res code msg ∧
    (∀ n, Reports services res n msg → -2 ^ 31 ≤ n ∧ n < 2 ^ 31) ∧
    (code = kCIM_ERR_SUCCESS → ∃ n, Reports services res n msg)

/-- The same, and where the error code is that of success there is a nickname. -/
def NickNameReadable (services : Services) (res : Response) : Prop :=
  res.code ≠ 200 ∨ ∃ code msg, Reads services res code msg ∧
    (∀ n, Reports services res n msg → -2 ^ 31 ≤ n ∧ n < 2 ^ 31) ∧
    (code = kCIM_ERR_SUCCESS → (∃ n, Reports services res n msg) ∧
      ∃ nick, member services res keyNickName = some (.string nick))

/-! ## Taking a reply apart -/

section

variable {services : Services} {res : Response} {succeeded : Json → Program Caller (Option Bool)}
  {ended : Option Bool} {caller : Caller}

theorem orThrow_some {α β : Type} (a : α) (f : α → Program Caller β) :
    (orThrow (some a) >>= f) caller = f a caller := rfl

theorem orThrow_none {α β : Type} (f : α → Program Caller β) :
    (orThrow none >>= f) caller = .error .exception caller := rfl

/-- A reply with another status than 200. -/
theorem handleReply_unavailable (h : res.code ≠ 200) :
    handleReply services res succeeded ended caller =
      .ok (some false)
        { caller with out := ⟨kCIM_ERR_INTERNAL_ERROR, serverUnavailable⟩ } := by
  rw [handleReply, if_pos h]
  rfl

/-- The reply `null`. -/
theorem handleReply_null (h : res.code = 200) (hparse : services.parse res.body = some .null) :
    handleReply services res succeeded ended caller = .ok ended caller := by
  rw [handleReply, if_neg (not_not_intro h), hparse]
  rfl

/-- Indexing an object gives the member, or null where there is none. -/
theorem index_object {members : List (Bytes × Json)}
    (h : services.parse res.body = some (.object members)) (key : Bytes) :
    (Json.object members).index key = some ((member services res key).getD .null) := by
  rw [member, h]
  rfl

/-- What is missing is not an integer. -/
theorem getInt_getD (convert : Json → Option Int32) (element : Option Json) :
    (element.getD .null).getInt convert = element.bind (Json.getInt convert) := by
  cases element with
  | none => rfl
  | some _ => rfl

theorem getString_getD (element : Option Json) :
    (element.getD .null).getString = element.bind Json.getString := by
  cases element with
  | none => rfl
  | some _ => rfl

theorem bind_getString_iff {element : Option Json} {text : Bytes} :
    element.bind Json.getString = some text ↔ element = some (.string text) := by
  constructor
  · intro h
    obtain ⟨value, rfl, htext⟩ := Option.bind_eq_some_iff.mp h
    cases value with
    | string value =>
        cases htext
        rfl
    | null | boolean _ | integer _ | float _ | array _ | object _ => cases htext
  · intro h
    rw [h]
    rfl

/-- A reply with an error code and a message to read. -/
theorem handleReply_reads {code : Int32} {msg : Bytes} (h : Reads services res code msg) :
    ∃ value, services.parse res.body = some value ∧
      (∀ key, value.index key = some ((member services res key).getD .null)) ∧
      ∀ succeeded ended caller, handleReply services res succeeded ended caller =
        (if code = kCIM_ERR_SUCCESS then succeeded value
          else pure (some false) : Program Caller (Option Bool))
            { caller with out := ⟨code, msg⟩ } := by
  obtain ⟨hstatus, hcode, hmsg⟩ := h
  cases hparse : services.parse res.body with
  | none =>
      rw [member, hparse] at hmsg
      cases hmsg
  | some value =>
      cases value with
      | object members =>
          have hindex := index_object hparse
          refine ⟨.object members, rfl, hindex, ?_⟩
          intro succeeded ended caller
          rw [handleReply, if_neg (not_not_intro hstatus), hparse, orThrow_some]
          simp only [hindex, Option.bind_some, getInt_getD, getString_getD, hcode,
            bind_getString_iff.mpr hmsg]
          rfl
      | null | boolean _ | integer _ | float _ | string _ | array _ =>
          rw [member, hparse] at hmsg
          cases hmsg

/-- Any other reply makes the function throw. -/
theorem handleReply_throws (hstatus : res.code = 200)
    (hnull : services.parse res.body ≠ some .null)
    (h : ¬ ∃ code msg, Reads services res code msg) :
    ∃ caller', handleReply services res succeeded ended caller = .error .exception caller' := by
  rw [handleReply, if_neg (not_not_intro hstatus)]
  cases hparse : services.parse res.body with
  | none => exact ⟨caller, rfl⟩
  | some value =>
      rw [orThrow_some]
      cases value with
      | null => exact absurd hparse hnull
      | boolean _ | integer _ | float _ | string _ | array _ => exact ⟨caller, rfl⟩
      | object members =>
          simp only [index_object hparse, Option.bind_some, getInt_getD, getString_getD]
          cases hcode : (member services res keyErrorCode).bind (Json.getInt services.convert) with
          | none => exact ⟨caller, rfl⟩
          | some code =>
              cases hmsg : (member services res keyErrorMsg).bind Json.getString with
              | none => exact ⟨_, rfl⟩
              | some msg =>
                  have hreads : Reads services res code msg :=
                    ⟨hstatus, hcode, bind_getString_iff.mp hmsg⟩
                  exact absurd ⟨code, msg, hreads⟩ h

end

/-! ## Which replies are handled -/

section

variable {services : Services} {res : Response} {succeeds : Prop}
  {succeeded : Json → Program Caller (Option Bool)} {ended : Option Bool}

/-- A reply has one error code and one message to read. -/
theorem Reads.unique {code code' : Int32} {msg msg' : Bytes} (h : Reads services res code msg)
    (h' : Reads services res code' msg') : code = code' ∧ msg = msg' := by
  have hcode := h.2.1.symm.trans h'.2.1
  have hmsg := h.2.2.symm.trans h'.2.2
  cases hcode
  cases hmsg
  exact ⟨rfl, rfl⟩

/-- An integer is read as the `int` it is cut to. -/
theorem Reports.reads {n : Int} {msg : Bytes} (h : Reports services res n msg) :
    Reads services res (Int32.ofInt n) msg := by
  refine ⟨h.1, ?_, h.2.2⟩
  rw [h.2.1]
  rfl

/-- An integer survives the conversion to `int` exactly when it fits. -/
theorem toInt_ofInt_iff (code : Int) :
    (Int32.ofInt code).toInt = code ↔ -2 ^ 31 ≤ code ∧ code < 2 ^ 31 := by
  constructor
  · intro h
    have hle := Int32.le_toInt (Int32.ofInt code)
    have hlt := Int32.toInt_lt (Int32.ofInt code)
    rw [h] at hle hlt
    exact ⟨hle, hlt⟩
  · intro hfits
    exact Int32.toInt_ofInt_of_le hfits.1 hfits.2

theorem handled_unavailable (h : res.code ≠ 200) (hsucceeds : ¬ succeeds) :
    Handled services res succeeds (handleReply services res succeeded ended) := by
  intro caller
  refine ⟨false, _, handleReply_unavailable h, iff_of_false Bool.false_ne_true hsucceeds, ?_⟩
  intro _
  refine ⟨?_, rfl⟩
  rw [Describes, if_pos h]

theorem not_handled_throws (hstatus : res.code = 200)
    (hnull : services.parse res.body ≠ some .null)
    (h : ¬ ∃ code msg, Reads services res code msg) :
    ¬ Handled services res succeeds (handleReply services res succeeded ended) := by
  intro hhandled
  obtain ⟨b, caller', hrun, -⟩ := hhandled ⟨⟨0, []⟩, []⟩
  obtain ⟨thrown, hthrows⟩ := handleReply_throws hstatus hnull h
  cases hthrows.symm.trans hrun

/-- A reply of success is read as one. -/
theorem reads_success
    (hsucceeds : succeeds → ∃ msg, Reports services res kCIM_ERR_SUCCESS.toInt msg)
    (h : succeeds) : ∃ msg, Reads services res kCIM_ERR_SUCCESS msg := by
  obtain ⟨msg, hreports⟩ := hsucceeds h
  have hreads := hreports.reads
  rw [Int32.ofInt_toInt] at hreads
  exact ⟨msg, hreads⟩

/-- An error is described exactly when its code, if it is an integer, fits an `int`. -/
theorem handled_error_iff {code : Int32} {msg : Bytes} (h : Reads services res code msg)
    (herror : code ≠ kCIM_ERR_SUCCESS)
    (hsucceeds : succeeds → ∃ msg, Reports services res kCIM_ERR_SUCCESS.toInt msg) :
    Handled services res succeeds (handleReply services res succeeded ended) ↔
      ∀ n, Reports services res n msg → -2 ^ 31 ≤ n ∧ n < 2 ^ 31 := by
  have hnot : ¬ succeeds := by
    intro hs
    obtain ⟨msg', h'⟩ := reads_success hsucceeds hs
    exact herror (h.unique h').1
  have hrun (caller : Caller) : handleReply services res succeeded ended caller =
      .ok (some false) { caller with out := ⟨code, msg⟩ } := by
    obtain ⟨value, -, -, hreads⟩ := handleReply_reads h
    rw [hreads, if_neg herror]
    rfl
  constructor
  · intro hhandled n hn
    have hcode : code = Int32.ofInt n := (h.unique hn.reads).1
    have hne : n ≠ kCIM_ERR_SUCCESS.toInt := by
      intro heq
      rw [hcode, heq, Int32.ofInt_toInt] at herror
      exact herror rfl
    obtain ⟨b, caller', hrun', -, hfalse⟩ := hhandled ⟨⟨0, []⟩, []⟩
    cases (hrun _).symm.trans hrun'
    have hdescribes := (hfalse rfl).1
    rw [Describes, if_neg (not_not_intro h.1)] at hdescribes
    rw [← toInt_ofInt_iff, ← hcode]
    exact (hdescribes.2 n msg hn hne).1
  · intro hfits caller
    refine ⟨false, _, hrun caller, iff_of_false Bool.false_ne_true hnot, ?_⟩
    intro _
    refine ⟨?_, rfl⟩
    rw [Describes, if_neg (not_not_intro h.1)]
    refine ⟨herror, ?_⟩
    intro n msg' hn _
    obtain ⟨rfl, rfl⟩ := h.unique hn.reads
    exact ⟨(toInt_ofInt_iff n).mpr (hfits n hn), rfl⟩

/-- A code read as that of success is that of success, if it is an integer that fits. -/
theorem reports_success_iff {msg : Bytes} (h : Reads services res kCIM_ERR_SUCCESS msg) :
    Reports services res kCIM_ERR_SUCCESS.toInt msg ↔
      (∀ n, Reports services res n msg → -2 ^ 31 ≤ n ∧ n < 2 ^ 31) ∧
        ∃ n, Reports services res n msg := by
  have hread (n : Int) (hn : Reports services res n msg) : Int32.ofInt n = kCIM_ERR_SUCCESS :=
    (hn.reads.unique h).1
  constructor
  · intro hreports
    refine ⟨?_, _, hreports⟩
    intro n hn
    have hsame : Json.integer n = .integer kCIM_ERR_SUCCESS.toInt :=
      Option.some.inj (hn.2.1.symm.trans hreports.2.1)
    rw [← toInt_ofInt_iff, hread n hn, Json.integer.inj hsame]
  · intro hfits
    obtain ⟨hfits, n, hn⟩ := hfits
    have hsame := (toInt_ofInt_iff n).mpr (hfits n hn)
    rw [hread n hn] at hsame
    rw [hsame]
    exact hn

/-- The replies that are handled, from what becomes of `null` and of a reply without an error:
`complete` says that such a reply has all that is read of it. -/
theorem handled_iff (complete : Prop)
    (hsucceeds : succeeds → ∃ msg, Reports services res kCIM_ERR_SUCCESS.toInt msg)
    (hnull : res.code = 200 → services.parse res.body = some .null →
      ¬ Handled services res succeeds (handleReply services res succeeded ended))
    (hsuccess : ∀ msg, Reads services res kCIM_ERR_SUCCESS msg →
      (Handled services res succeeds (handleReply services res succeeded ended) ↔
        Reports services res kCIM_ERR_SUCCESS.toInt msg ∧ complete)) :
    Handled services res succeeds (handleReply services res succeeded ended) ↔
      res.code ≠ 200 ∨ ∃ code msg, Reads services res code msg ∧
        (∀ n, Reports services res n msg → -2 ^ 31 ≤ n ∧ n < 2 ^ 31) ∧
        (code = kCIM_ERR_SUCCESS → (∃ n, Reports services res n msg) ∧ complete) := by
  by_cases hstatus : res.code = 200
  · rw [or_iff_right (not_not_intro hstatus)]
    by_cases hreads : ∃ code msg, Reads services res code msg
    · obtain ⟨code, msg, h⟩ := hreads
      have honly : (∃ code msg, Reads services res code msg ∧
          (∀ n, Reports services res n msg → -2 ^ 31 ≤ n ∧ n < 2 ^ 31) ∧
            (code = kCIM_ERR_SUCCESS → (∃ n, Reports services res n msg) ∧ complete)) ↔
          (∀ n, Reports services res n msg → -2 ^ 31 ≤ n ∧ n < 2 ^ 31) ∧
            (code = kCIM_ERR_SUCCESS → (∃ n, Reports services res n msg) ∧ complete) := by
        constructor
        · intro hreadable
          obtain ⟨code', msg', h', hmet⟩ := hreadable
          obtain ⟨rfl, rfl⟩ := h.unique h'
          exact hmet
        · intro hmet
          exact ⟨code, msg, h, hmet⟩
      rw [honly]
      by_cases herror : code = kCIM_ERR_SUCCESS
      · rw [herror] at h
        rw [hsuccess msg h, reports_success_iff h, and_assoc]
        exact and_congr_right' ⟨fun hmet _ ↦ hmet, fun hmet ↦ hmet herror⟩
      · rw [handled_error_iff h herror hsucceeds]
        exact (and_iff_left fun heq ↦ absurd heq herror).symm
    · refine iff_of_false ?_ ?_
      · by_cases hparse : services.parse res.body = some .null
        · exact hnull hstatus hparse
        · exact not_handled_throws hstatus hparse hreads
      · intro hreadable
        obtain ⟨code, msg, h, -⟩ := hreadable
        exact hreads ⟨code, msg, h⟩
  · refine iff_of_true (handled_unavailable hstatus ?_) (Or.inl hstatus)
    intro hs
    obtain ⟨msg, h⟩ := hsucceeds hs
    exact hstatus h.1

end

/-- The replies that `registerUser` handles. -/
theorem register_handled_iff (services : Services) (res : Response) :
    Handled services res (RegisterSucceeds services res)
        (handleReply services res (fun _ ↦ return some true) (some false)) ↔
      RegisterReadable services res := by
  have hreadable : RegisterReadable services res ↔ res.code ≠ 200 ∨ ∃ code msg,
      Reads services res code msg ∧
        (∀ n, Reports services res n msg → -2 ^ 31 ≤ n ∧ n < 2 ^ 31) ∧
        (code = kCIM_ERR_SUCCESS → (∃ n, Reports services res n msg) ∧ True) := by
    simp only [RegisterReadable, and_true]
  rw [hreadable]
  refine handled_iff True id ?_ ?_
  · -- `null` leaves the object as it was, even if that says success
    intro hstatus hparse hhandled
    obtain ⟨b, caller', hrun, -, hfalse⟩ := hhandled ⟨⟨kCIM_ERR_SUCCESS, []⟩, []⟩
    cases (handleReply_null hstatus hparse).symm.trans hrun
    have hdescribes := (hfalse rfl).1
    rw [Describes, if_neg (not_not_intro hstatus)] at hdescribes
    exact hdescribes.1 rfl
  · intro msg h
    have hrun (caller : Caller) :
        handleReply services res (fun _ ↦ return some true) (some false) caller =
          .ok (some true) { caller with out := ⟨kCIM_ERR_SUCCESS, msg⟩ } := by
      obtain ⟨value, -, -, hreply⟩ := handleReply_reads h
      rw [hreply, if_pos rfl]
      rfl
    constructor
    · intro hhandled
      obtain ⟨b, caller', hrun', hsucceeds, -⟩ := hhandled ⟨⟨0, []⟩, []⟩
      cases (hrun _).symm.trans hrun'
      obtain ⟨msg', h'⟩ := hsucceeds.mp rfl
      obtain ⟨-, rfl⟩ := h.unique h'.reads
      exact ⟨h', trivial⟩
    · intro hmet caller
      exact ⟨true, _, hrun caller, iff_of_true rfl ⟨msg, hmet.1⟩, fun hfalse ↦ by cases hfalse⟩

/-- The replies that `generateNickName` handles. -/
theorem nickName_handled_iff (services : Services) (server : ServerInfoConfig) :
    Handled services (nickNameReply services server)
        (NickNameSucceeds services (nickNameReply services server))
        (generateNickName services server) ↔
      NickNameReadable services (nickNameReply services server) := by
  refine handled_iff _ ?_ ?_ ?_
  · intro hsucceeds
    obtain ⟨msg, h, -⟩ := hsucceeds
    exact ⟨msg, h⟩
  · -- behind the branches there is no `return`
    intro hstatus hparse hhandled
    obtain ⟨b, caller', hrun, -⟩ := hhandled ⟨⟨0, []⟩, []⟩
    cases (handleReply_null hstatus hparse).symm.trans hrun
  · intro msg h
    obtain ⟨value, -, hindex, hreply⟩ := handleReply_reads h
    let res := nickNameReply services server
    have hrun (caller : Caller) : generateNickName services server caller =
        (orThrow ((member services res keyNickName).bind Json.getString) >>= fun randomNick ↦ do
          modify ({ · with randomNick })
          return some true : Program Caller (Option Bool))
            { caller with out := ⟨kCIM_ERR_SUCCESS, msg⟩ } := by
      rw [generateNickName, hreply, if_pos rfl, hindex, Option.bind_some, getString_getD]
    constructor
    · intro hhandled
      obtain ⟨b, caller', hrun', hsucceeds, -⟩ := hhandled ⟨⟨0, []⟩, []⟩
      have hok := (hrun _).symm.trans hrun'
      cases hget : (member services res keyNickName).bind Json.getString with
      | none =>
          rw [hget, orThrow_none] at hok
          cases hok
      | some nick =>
          rw [hget, orThrow_some] at hok
          cases hok
          obtain ⟨msg', h', hnick⟩ := hsucceeds.mp rfl
          obtain ⟨-, rfl⟩ := h.unique h'.reads
          exact ⟨h', hnick⟩
    · intro hmet caller
      obtain ⟨hreports, nick, hnick⟩ := hmet
      refine ⟨true, ⟨⟨kCIM_ERR_SUCCESS, msg⟩, nick⟩, ?_,
        iff_of_true rfl ⟨msg, hreports, nick, hnick⟩, fun hfalse ↦ by cases hfalse⟩
      refine (hrun caller).trans ?_
      rw [bind_getString_iff.mpr hnick]
      rfl

/-- The password is always digested, so that `registerUser` gets a reply. -/
theorem registerUser_eq {m : DataModel} (services : Services) (server : ServerInfoConfig)
    (memory : MD5 m) (userName nickName : Bytes) (userPwd : Input m) :
    ∃ res, registerReply services server memory userName userPwd.bytes nickName = .ok res ∧
      registerUser services server memory userName userPwd.bytes nickName =
        handleReply services res (fun _ ↦ return some true) (some false) := by
  obtain ⟨res, hres⟩ : ∃ res, registerReply services server memory userName userPwd.bytes nickName =
      .ok res := ⟨_, bind_eq_ok.mpr ⟨_, MD5.hash_eq memory userPwd.length_lt, rfl⟩⟩
  exact ⟨res, hres, by rw [registerUser, hres]⟩

/-- For all servers and replies: `registerUser` and `generateNickName` handle a reply exactly when
its status is not 200 or its body is an object with an error code and a message to read, where the
error code fits an `int` if it is an integer, and is one if it is read as that of success; then
`generateNickName` needs a nickname too. -/
theorem replies_handled_iff {m : DataModel} (services : Services) (server : ServerInfoConfig)
    (memory : MD5 m) (userName nickName : Bytes) (userPwd : Input m) :
    (∃ res, registerReply services server memory userName userPwd.bytes nickName = .ok res ∧
      (Handled services res (RegisterSucceeds services res)
          (registerUser services server memory userName userPwd.bytes nickName) ↔
        RegisterReadable services res)) ∧
      (Handled services (nickNameReply services server)
          (NickNameSucceeds services (nickNameReply services server))
          (generateNickName services server) ↔
        NickNameReadable services (nickNameReply services server)) := by
  obtain ⟨res, hres, hrun⟩ := registerUser_eq services server memory userName nickName userPwd
  refine ⟨⟨res, hres, ?_⟩, nickName_handled_iff services server⟩
  rw [hrun]
  exact register_handled_iff services res

/-- Status 200 with an empty body, which is not JSON: the exception of the parser escapes. -/
theorem not_replies_handled :
    ¬ ∀ (services : Services) (server : ServerInfoConfig),
      Handled services (nickNameReply services server)
        (NickNameSucceeds services (nickNameReply services server))
        (generateNickName services server) := by
  intro h
  let services : Services := ⟨fun _ _ _ ↦ ⟨200, []⟩, fun _ ↦ ⟨200, []⟩, fun _ ↦ none,
    fun _ ↦ none, fun _ ↦ []⟩
  obtain ⟨b, caller', hrun, -⟩ := h services {} ⟨⟨0, []⟩, []⟩
  cases hrun

end UserManager

end CoffeeChat
