/-!
# Error codes

The machine-readable codes of user-facing failures, and the exceptions that carry them.
Internal failures stay without a code.
-/

namespace VertexApi

/-- The failures that the frontend presents to an end user. -/
inductive ErrorCode where
  | invalidCredentials
  | emailInUse
  | userBanned
  | adminOnly
  | commentsDisabled
  | cannotBanSelf
  | slugInUse
  | githubAlreadyLinked
  | githubEmailConflict
  | googleAlreadyLinked
  | oAuthStateMismatch
  | otpInvalid
  | otpExpired
  | otpTooManyAttempts
  | otpCooldown
  deriving DecidableEq, Repr

/-- The text of a code in a response body. -/
def ErrorCode.text : ErrorCode → String
  | .invalidCredentials => "INVALID_CREDENTIALS"
  | .emailInUse => "EMAIL_IN_USE"
  | .userBanned => "USER_BANNED"
  | .adminOnly => "ADMIN_ONLY"
  | .commentsDisabled => "COMMENTS_DISABLED"
  | .cannotBanSelf => "CANNOT_BAN_SELF"
  | .slugInUse => "SLUG_IN_USE"
  | .githubAlreadyLinked => "GITHUB_ALREADY_LINKED"
  | .githubEmailConflict => "GITHUB_EMAIL_CONFLICT"
  | .googleAlreadyLinked => "GOOGLE_ALREADY_LINKED"
  | .oAuthStateMismatch => "OAUTH_STATE_MISMATCH"
  | .otpInvalid => "OTP_INVALID"
  | .otpExpired => "OTP_EXPIRED"
  | .otpTooManyAttempts => "OTP_TOO_MANY_ATTEMPTS"
  | .otpCooldown => "OTP_COOLDOWN"

/-- An exception as the HTTP layer sees it. -/
structure HttpException where
  status : Nat
  message : String
  code : Option String
  deriving DecidableEq, Repr

/-- `UnauthorizedException`, with a code when the failure is presented to a user. -/
def unauthorizedException (message : String) (code : Option ErrorCode) : HttpException where
  status := 401
  message := message
  code := code.map ErrorCode.text

/-- A `TOO_MANY_REQUESTS` exception with its code. -/
def tooManyRequestsException (message : String) (code : ErrorCode) : HttpException where
  status := 429
  message := message
  code := some code.text

/-- `ForbiddenException` with its code. -/
def forbiddenException (message : String) (code : ErrorCode) : HttpException where
  status := 403
  message := message
  code := some code.text

/-- `ConflictException` with its code. -/
def conflictException (message : String) (code : ErrorCode) : HttpException where
  status := 409
  message := message
  code := some code.text

/-- `BadRequestException`, with a code when the failure is presented to a user. -/
def badRequestException (message : String) (code : Option ErrorCode) : HttpException where
  status := 400
  message := message
  code := code.map ErrorCode.text

/-- `InternalServerErrorException`; internal failures carry no code. -/
def internalServerErrorException (message : String) : HttpException where
  status := 500
  message := message
  code := none

/-- `ServiceUnavailableException`; internal failures carry no code. -/
def serviceUnavailableException (message : String) : HttpException where
  status := 503
  message := message
  code := none

/-- `NotFoundException`; lookups carry no code. -/
def notFoundException (message : String) : HttpException where
  status := 404
  message := message
  code := none

end VertexApi
