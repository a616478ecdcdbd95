import StoryCatalog.Error
import StoryCatalog.Literal.Escape
import StoryCatalog.Text.Utf8
import StoryCatalog.Url.Request

/-!
# Failures

What may end a piece of work: an error of the extraction, or a value that cannot be read, written or
sent.
-/

namespace StoryCatalog

/-- Why a piece of work has failed. -/
inductive Failure where
  | extraction (error : ExtractionError)
  | literal (error : LiteralError)
  | encoding (fault : EncodeFault)
  | request (fault : RequestFault)
  | url (fault : UrlFault)
  | home (fault : HomeFault)
  | tooManyDigits

/-- The text of a failure. -/
def Failure.text : Failure → Text
  | .extraction error => error.text
  | .literal error => error.message
  | .encoding fault => fault.message
  | .request fault => fault.message
  | .url fault => fault.message
  | .home fault => fault.message
  | .tooManyDigits => TooManyDigits.message .tooManyDigits

end StoryCatalog
