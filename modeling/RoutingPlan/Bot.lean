import RoutingPlan.Registry
import RoutingPlan.Text.Case
import RoutingPlan.Text.Search

-- The built-in bot: a small customer service. Support questions go through a support router, those
-- about marketing, billing and the seasons through a business router, and everything else gets
-- small talk.

namespace RoutingPlan.Bot

open Json (Value)

-- Words, and the route key that one of them leads to.
abbrev Rule := List String × String

-- The first rule of which a word occurs in the text decides.
def route (rules : List Rule) (otherwise : Option String) (text : String) : Option String :=
  match rules.find? fun rule => rule.1.any (Text.contains text) with
  | some rule => some rule.2
  | none => otherwise

-- Goes by the lower case of its input; what is no string has no words.
def wordRouter (name : String) (rules : List Rule) (otherwise : Option String) : Step :=
  .router name fun input _ => .done (route rules otherwise (Text.toLower (input.string?.getD "")))

def reply (name text : String) : Step :=
  .action name fun _ _ => .done (some (.string text))

-- Opens a support conversation and mentions the messages before it.
def support : Step :=
  .action "SupportStep" fun _ c =>
    let greeting := "Hi, how can I help you with support?"
    .done (some (.string (match c.history.length with
      | 0 => greeting
      | n => s!"{greeting} ({n} earlier messages)")))

def rootRules : List Rule :=
  [(["support", "help"], "support"),
    (["marketing", "billing", "in-season", "pre-season"], "business")]

def businessRules : List Rule :=
  [(["marketing"], "marketing"), (["billing"], "billing"), (["in-season"], "in-season"),
    (["pre-season"], "pre-season")]

def steps : List Step := [
  wordRouter "RootRouterStep" rootRules (some "fallback"),
  wordRouter "BusinessRouterStep" businessRules none,
  wordRouter "SupportRouterStep" [] (some "level-1"),
  support,
  reply "FirstLevelSupportStep" "Hi, how can I help you with level-1 support?",
  reply "MarketingStep" "Hi! How can I assist you with marketing?",
  reply "BillingStep" "Hi, how can I assist you with your billing?",
  reply "InSeasonStep" "Hi, how can I help you with in-season?",
  reply "PreSeasonStep" "Hi, how can I help you with pre-season?",
  reply "FallbackStep" "How are you?"]

def registry : Registry :=
  Registry.empty.registerAll steps

-- The plan that is used where no other is configured.
def definition : Definition :=
  .mk "RootRouterStep" none (some [
    .mk "SupportStep" (some "support") (some [
      .mk "SupportRouterStep" none (some [
        .mk "FirstLevelSupportStep" (some "level-1") none])]),
    .mk "BusinessRouterStep" (some "business") (some [
      .mk "MarketingStep" (some "marketing") none,
      .mk "BillingStep" (some "billing") none,
      .mk "InSeasonStep" (some "in-season") none,
      .mk "PreSeasonStep" (some "pre-season") none]),
    .mk "FallbackStep" (some "fallback") none])

-- The text of that plan.
def planText : String := "\x7b
  \"step\": \"RootRouterStep\",
  \"children\": [
    \x7b
      \"step\": \"SupportStep\",
      \"route_key\": \"support\",
      \"children\": [
        \x7b
          \"step\": \"SupportRouterStep\",
          \"children\": [
            \x7b \"step\": \"FirstLevelSupportStep\", \"route_key\": \"level-1\" \x7d
          ]
        \x7d
      ]
    \x7d,
    \x7b
      \"step\": \"BusinessRouterStep\",
      \"route_key\": \"business\",
      \"children\": [
        \x7b \"step\": \"MarketingStep\", \"route_key\": \"marketing\" \x7d,
        \x7b \"step\": \"BillingStep\", \"route_key\": \"billing\" \x7d,
        \x7b \"step\": \"InSeasonStep\", \"route_key\": \"in-season\" \x7d,
        \x7b \"step\": \"PreSeasonStep\", \"route_key\": \"pre-season\" \x7d
      ]
    \x7d,
    \x7b \"step\": \"FallbackStep\", \"route_key\": \"fallback\" \x7d
  ]
\x7d"

end RoutingPlan.Bot
