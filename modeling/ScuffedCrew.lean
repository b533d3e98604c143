import ScuffedCrew.Applications.Outcomes
import ScuffedCrew.Boundary.FreshBoard
import ScuffedCrew.Boundary.OutcomeMap
import ScuffedCrew.Calendar.Occurrences
import ScuffedCrew.CaptureGate.Release
import ScuffedCrew.Challenges.Replay
import ScuffedCrew.Collab.Departures
import ScuffedCrew.Collab.Patch
import ScuffedCrew.Collab.StrategyLock
import ScuffedCrew.DeviceLinks.Leftover
import ScuffedCrew.DirectMessages.Completeness
import ScuffedCrew.Editor.History
import ScuffedCrew.Editor.Unsaved
import ScuffedCrew.HeroAuth.Authority
import ScuffedCrew.Leaderboard.Freezing
import ScuffedCrew.Leaderboard.Projection
import ScuffedCrew.LinkPoll.Promises
import ScuffedCrew.LoginLockout.Locks
import ScuffedCrew.Members.LastAdmin
import ScuffedCrew.NostrKeys.Identity
import ScuffedCrew.Packs.Arrival
import ScuffedCrew.Packs.Exact
import ScuffedCrew.Packs.Reliable
import ScuffedCrew.Parse.BoardLine
import ScuffedCrew.PersonalMatches.Migrated
import ScuffedCrew.Polls.SingleChoice
import ScuffedCrew.RateLimit.ClientIp
import ScuffedCrew.RelayPolicy.Accounting
import ScuffedCrew.RelayPolicy.Authorship
import ScuffedCrew.RelayPolicy.GiftWindow
import ScuffedCrew.RelayPolicy.Membership
import ScuffedCrew.Report.Scrub
import ScuffedCrew.ScreenCast.Frames
import ScuffedCrew.ScreenCast.PodDecoding
import ScuffedCrew.Sessions.Cap
import ScuffedCrew.Sessions.Leaving
import ScuffedCrew.StatReports.PngFilter
import ScuffedCrew.Storage.Deletion
import ScuffedCrew.Storage.FailedDelete
import ScuffedCrew.Storage.Segments
import ScuffedCrew.Sync.LocalEdits
import ScuffedCrew.Sync.Progress
import ScuffedCrew.TabRetry.Kept
import ScuffedCrew.Tournaments.Concurrent
import ScuffedCrew.Tournaments.Finish
import ScuffedCrew.Tournaments.OneToOne
import ScuffedCrew.Tournaments.RoundRobin
import ScuffedCrew.Tournaments.SeedsApart
import ScuffedCrew.Tournaments.SwissPairing
import ScuffedCrew.Wiki.History
