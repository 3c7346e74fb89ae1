import DocSite.Finding
import DocSite.Text.Blank
import DocSite.Time.Duration

namespace DocSite

structure Settings where
  port : String := "8080"
  declaration : String := "site.yaml"
  watch : Bool := true
  watchDebounce : Duration := .milliseconds 250
  reloadStrategy : String := "replace"
  logLevel : String := "info"
  shutdownGracePeriod : Duration := .seconds 10
  readHeaderTimeout : Duration := .seconds 5
  writeTimeout : Duration := .seconds 15
  idleTimeout : Duration := .seconds 60
  requestLogging : Bool := true
  maxBodyBytes : Int := 1048576
  rate : Binary64 := .ofInt 25
  burst : Int := 50
deriving Repr, DecidableEq

namespace Settings

structure Layer where
  port : Option String := none
  declaration : Option String := none
  watch : Option Bool := none
  watchDebounce : Option Duration := none
  reloadStrategy : Option String := none
  logLevel : Option String := none
  shutdownGracePeriod : Option Duration := none
  readHeaderTimeout : Option Duration := none
  writeTimeout : Option Duration := none
  idleTimeout : Option Duration := none
  requestLogging : Option Bool := none
  maxBodyBytes : Option Int := none
  rate : Option Binary64 := none
  burst : Option Int := none
deriving Repr, DecidableEq

def given (s : Option String) : Option String := s.filter (· != "")

def trimmed (s : Option String) : Option String := given (s.map Text.trim)

def Layer.over (layer : Layer) (below : Settings) : Settings where
  port := layer.port.getD below.port
  declaration := layer.declaration.getD below.declaration
  watch := layer.watch.getD below.watch
  watchDebounce := layer.watchDebounce.getD below.watchDebounce
  reloadStrategy := layer.reloadStrategy.getD below.reloadStrategy
  logLevel := layer.logLevel.getD below.logLevel
  shutdownGracePeriod := layer.shutdownGracePeriod.getD below.shutdownGracePeriod
  readHeaderTimeout := layer.readHeaderTimeout.getD below.readHeaderTimeout
  writeTimeout := layer.writeTimeout.getD below.writeTimeout
  idleTimeout := layer.idleTimeout.getD below.idleTimeout
  requestLogging := layer.requestLogging.getD below.requestLogging
  maxBodyBytes := layer.maxBodyBytes.getD below.maxBodyBytes
  rate := layer.rate.getD below.rate
  burst := layer.burst.getD below.burst

@[simp]
theorem Layer.empty_over (below : Settings) : ({} : Layer).over below = below := rfl

def flaw? (s : Settings) : Option String :=
  if s.rate.isNegative then some "RATE_LIMIT_RPS must be >= 0"
  else if s.burst < 0 then some "RATE_LIMIT_BURST must be >= 0"
  else if Text.isBlankText s.declaration then some "declaration path cannot be empty"
  else if s.reloadStrategy ≠ "replace" ∧ s.reloadStrategy ≠ "reconcile" then
    some ("reload strategy must be \"replace\" or \"reconcile\", got " ++
      Text.quote s.reloadStrategy)
  else if s.watchDebounce.nanoseconds < 0 then some "watch debounce must be >= 0"
  else none

end Settings

end DocSite
