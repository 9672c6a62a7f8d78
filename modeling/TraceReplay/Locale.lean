/-! # Locales -/

namespace TraceReplay

inductive Locale where
  | en
  | bn
  deriving DecidableEq, Inhabited

def Locale.code : Locale → String
  | en => "en"
  | bn => "bn"

def Locale.all : List Locale := [.en, .bn]

end TraceReplay
