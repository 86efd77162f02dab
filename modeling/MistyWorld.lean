import MistyWorld.CashOnDelivery
import MistyWorld.QuestStructure
import MistyWorld.Permissions
import MistyWorld.EventQuests
import MistyWorld.EventTimes
import MistyWorld.WorldEvents
import MistyWorld.CalendarView
import MistyWorld.ReputationCounters
import MistyWorld.GroupMembers
import MistyWorld.ThreatTaunt
import MistyWorld.ConditionReferences
import MistyWorld.GuildTable
import MistyWorld.GuildBankMoves
import MistyWorld.LootCounter
import MistyWorld.PacketInput
import MistyWorld.PacketOutput
import MistyWorld.MotionUpdate
import MistyWorld.Channel
import MistyWorld.IndividualResets
import MistyWorld.InstanceBinds
import MistyWorld.BattlegroundQueueInvariant
import MistyWorld.BattlegroundFilling
import MistyWorld.DungeonFinderInvariant
import MistyWorld.VehicleBoarding
import MistyWorld.PrevQuests
import MistyWorld.GuildRights
import MistyWorld.VendorList
import MistyWorld.QuestLoot
import MistyWorld.RollAward
import MistyWorld.FailedQuest
import MistyWorld.BackPatching
import MistyWorld.BattlegroundWaiting
import MistyWorld.BattlegroundSkirmish
import MistyWorld.ArenaTeams
import MistyWorld.QuestPools
import MistyWorld.PoolLoading
import MistyWorld.AuctionSell
import MistyWorld.VoidStorage
import MistyWorld.HighGuid
import MistyWorld.WideString
import MistyWorld.MovementRoundTrip
import MistyWorld.LfgFinder
import MistyWorld.MapUpdater
