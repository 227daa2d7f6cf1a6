/-! Faults of secure messaging, and their texts. -/

namespace SmartCard

/-- What is wrong with the structure of a protected message, or of a command to protect. -/
inductive Malformation
  | zeroExpectedLength
  | expectedLengthTooLarge
  | missingObject
  | truncatedLength
  | indefiniteLength
  | lengthFieldTooLong
  | truncatedValue
  | unexpectedTag
  | invalidPadding
  | alreadyProtected
  | bodyTooLong
  | notACommand
  | notEncodable
  | responseTooShort
  | statusObjectLength
  | missingStatusObject
  | macObjectLength
  | missingMacObject
  | missingTrailingStatus
  | unsupportedPaddingIndicator
  deriving DecidableEq, Repr

inductive CryptoFault
  | encryptionKeyLength
  | macKeyLength
  | partialBlock
  deriving DecidableEq, Repr

inductive MessagingError
  | malformed (reason : Malformation)
  | integrity
  | crypto (fault : CryptoFault)
  deriving DecidableEq, Repr

def Malformation.message : Malformation → String
  | zeroExpectedLength => "expected length must not be zero"
  | expectedLengthTooLarge => "expected length exceeds 65536"
  | missingObject => "missing data object"
  | truncatedLength => "truncated data object length"
  | indefiniteLength => "indefinite length not allowed"
  | lengthFieldTooLong => "data object length field too long"
  | truncatedValue => "truncated data object value"
  | unexpectedTag => "unexpected data object tag"
  | invalidPadding => "invalid padding in decrypted data"
  | alreadyProtected => "command is already secure messaging protected"
  | bodyTooLong => "protected command exceeds extended length"
  | notACommand => "command is not a valid APDU"
  | notEncodable => "protected command cannot be encoded"
  | responseTooShort => "response too short for secure messaging"
  | statusObjectLength => "status object must hold two bytes"
  | missingStatusObject => "missing status object"
  | macObjectLength => "MAC object must hold eight bytes"
  | missingMacObject => "missing MAC object"
  | missingTrailingStatus => "missing trailing status word"
  | unsupportedPaddingIndicator => "unsupported padding indicator"

def CryptoFault.message : CryptoFault → String
  | encryptionKeyLength => "encryption key must be 16 bytes"
  | macKeyLength => "MAC key must be 16 bytes"
  | partialBlock => "cryptogram is not a whole number of blocks"

def MessagingError.message : MessagingError → String
  | malformed reason => "Malformed APDU: " ++ reason.message
  | integrity => "Secure messaging integrity check failed"
  | crypto fault => "Cryptographic error: " ++ fault.message

end SmartCard
