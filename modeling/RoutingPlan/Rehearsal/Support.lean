import RoutingPlan.Registry
import RoutingPlan.Rehearsal.Steps

-- A small customer service to rehearse with: its steps and its plan.

namespace RoutingPlan.Rehearsal

def rootRouter : Step :=
  .keyword "FakeRootRouterStep"
    [("hi", "fallback"), ("support", "support"), ("in-season", "business"),
      ("pre-season", "business")]

def businessRouter : Step :=
  .keyword "FakeBusinessRouterStep" [("in-season", "in-season"), ("pre-season", "pre-season")]

def registry : Registry :=
  Registry.empty.registerAll [
    rootRouter,
    businessRouter,
    .fixed "FakeSupportRouterStep" "level-1",
    .undetermined "FakeRouterStepWithoutRouteKey",
    .canned "FakeFallbackStep" (.string "How are you?"),
    .canned "FakeSupportStep" (.string "Hi, how can I help you with support?"),
    .canned "FakeFirstLevelSupportStep" (.string "Hi, how can I help you with level-1 support?"),
    .canned "FakeInSeasonStep" (.string "Hi, how can I help you with in-season?"),
    .canned "FakePreSeasonStep" (.string "Hi, how can I help you with pre-season?"),
    .silent "FakeSilentStep",
    .shout,
    .failing]

def definition : Definition :=
  .mk "FakeRootRouterStep" none (some [
    .mk "FakeFallbackStep" (some "fallback") none,
    .mk "FakeSupportStep" (some "support") (some [.leaf "FakeFirstLevelSupportStep"]),
    .mk "FakeBusinessRouterStep" (some "business") (some [
      .mk "FakeInSeasonStep" (some "in-season") none,
      .mk "FakePreSeasonStep" (some "pre-season") none])])

end RoutingPlan.Rehearsal
