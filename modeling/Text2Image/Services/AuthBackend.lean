import Text2Image.Concurrency.System
import Text2Image.Services.AuthService

/-! The authentication side of the backend: any number of calls at once, while time
passes and administrators enable and disable accounts.
-/

set_option autoImplicit false

namespace Text2Image.Auth

open Concurrency

inductive Call where
  | register (payload : Json)
  | login (payload : Json)
  | refresh (payload : Json)
  | logout (payload : Json)
  | changePassword (userId : Int) (payload : Json)

inductive Reply where
  | registered (result : Except Failure User)
  | tokens (result : Except Failure LoginResult)
  | finished (result : Except Failure Unit)

/-- What happens by itself. -/
inductive Env where
  | passTime (ticks : Nat)
  | setEnabled (userId : Int) (enabled : Bool)

variable (d : Deployment) (token_store : RefreshTokenStore)

def Call.program : Call → Program Reply
  | .register payload => (AuthService.registerUser d payload).run.bind fun result =>
      .done (.registered result)
  | .login payload => (AuthService.login d token_store payload).run.bind fun result =>
      .done (.tokens result)
  | .refresh payload => (AuthService.refresh d token_store payload).run.bind fun result =>
      .done (.tokens result)
  | .logout payload => (AuthService.logout d token_store payload).run.bind fun result =>
      .done (.finished result)
  | .changePassword userId payload =>
      (AuthService.changePassword d token_store userId payload).run.bind fun result =>
        .done (.finished result)

def Env.apply : Env → World → World
  | .passTime ticks, w => { w with clock := w.clock + ticks }
  | .setEnabled userId enabled, w => { w with users := w.users.setEnabled userId enabled }

def backend : System where
  I := interface
  World := World
  Choice := Choice
  Call := Call
  Reply := Reply
  Env := Env
  perform _ := perform
  program := Call.program d token_store
  background _ _ _ := false
  leave _ world := world
  env := Env.apply

end Text2Image.Auth
