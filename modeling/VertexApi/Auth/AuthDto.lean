import VertexApi.Auth.Password
import VertexApi.Common.JsString

/-!
# The bodies of the sign-ins

The schemas of an emailed code put its address into lower case; a registration and a password
sign-in take theirs as it is typed.
-/

namespace VertexApi.Auth

variable (isEmail : String → Bool)

/-- `registerSchema`. -/
def registerSchema (body : RegisterDto) : Option RegisterDto :=
  if isEmail body.email ∧ 8 ≤ JsString.length body.password then some body else none

/-- `loginSchema`. -/
def loginSchema (body : LoginDto) : Option LoginDto :=
  if isEmail body.email ∧ body.password ≠ "" then some body else none

/-- `exchangeSchema`. -/
def exchangeSchema (code : String) : Option String := if code = "" then none else some code

/-- The address of `requestOtpSchema`; its locale picks the texts of the mail. -/
def requestOtpSchema (toLowerCase : String → String) (email : String) : Option String :=
  if isEmail email then some (toLowerCase email) else none

/-- `/^\\d{6}$/`. -/
def SixDigits (code : String) : Prop :=
  code.toList.length = 6 ∧ ∀ c ∈ code.toList, c.isDigit = true

instance decidableSixDigits (code : String) : Decidable (SixDigits code) :=
  decidable_of_iff (code.toList.length = 6 ∧ code.toList.all Char.isDigit = true)
    (and_congr_right fun _ => List.all_eq_true)

/-- `verifyOtpSchema`: the address and the code. -/
def verifyOtpSchema (toLowerCase : String → String) (email code : String) :
    Option (String × String) :=
  if isEmail email ∧ SixDigits code then some (toLowerCase email, code) else none

end VertexApi.Auth
