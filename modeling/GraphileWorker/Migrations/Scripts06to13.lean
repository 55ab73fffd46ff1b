import GraphileWorker.Migrations.SharedLines

/-! # The files `m000006.sql` to `m000013.sql` -/
namespace GraphileWorker.Migrations.Scripts

set_option maxRecDepth 4096

def m000006 : Script where
  stmts := [["create index jobs_priority_run_at_id_locked_at_without_failures_idx
    on @.jobs (priority, run_at, id, locked_at)
    where attempts < max_attempts;"],
 ["drop index @.jobs_priority_run_at_id_idx;"]]

def m000007 : Script where
  stmts := [["drop function @.add_job(text, json, text, timestamptz, int, text, int, text[]);"],
 addJobParameters ++ ["    max_attempts integer = null,
    job_key text = null,
    priority integer = null,
    flags text[] = null,
    job_key_mode text = 'replace'"] ++ addJobChecks ++ ["        raise exception 'Job maximum attempts must be at least 1.' using errcode = 'GWBMA';
    end if;
    if job_key is not null and (job_key_mode is null or job_key_mode in ('replace', 'preserve_run_at')) then
        -- Upsert job if existing job isn't locked, but in the case of locked
        -- existing job create a new job instead as it must have already started
        -- executing (i.e. it's world state is out of date, and the fact add_job
        -- has been called again implies there's new information that needs to be
        -- acted upon)."] ++ jobValues ++ ["                    select jsonb_object_agg(flag, true)
                    from unnest(flags) as item(flag)
                )"] ++ upsertColumns ++ ["                run_at=(case
                    when job_key_mode = 'preserve_run_at' and jobs.attempts = 0 then jobs.run_at
                    else excluded.run_at
                end),
                priority=excluded.priority,
                revision=jobs.revision + 1,
                flags=excluded.flags,"] ++ resetUnlocked ++ ["        -- If upsert succeeded (insert or update), return early
        if not (v_job is null) then
            return v_job;
        end if;
        -- Upsert failed -> there must be an existing job that is locked. Remove
        -- existing key to allow a new one to be inserted, and prevent any
        -- subsequent retries of existing job by bumping attempts to the max
        -- allowed.
        update @.jobs
            set
                key = null,
                attempts = jobs.max_attempts
            where key = job_key;
    elsif job_key is not null and job_key_mode = 'unsafe_dedupe' then"] ++ dedupeWarning ++ jobValues ++ ["                    select jsonb_object_agg(flag, true)
                    from unnest(flags) as item(flag)
                )
            )
            on conflict (key)
            -- Bump the revision so that there's something to return
            do update set revision = jobs.revision + 1
            returning *
            into v_job;
        return v_job;
    elsif job_key is not null then"] ++ keyModeError ++ ["    -- insert the new job. Assume no conflicts due to the update above"] ++ insertJobHead ++ ["        priority,
        flags"] ++ plainValues ++ ["            coalesce(priority, 0),
            (
                select jsonb_object_agg(flag, true)
                from unnest(flags) as item(flag)
            )
        )
        returning *
        into v_job;
    return v_job;
end;
$$ language plpgsql volatile;"]]

def m000008 : Script where
  stmts := [["create table @.known_crontabs (
    identifier text not null primary key,
    known_since timestamptz not null,
    last_execution timestamptz
);"],
 ["alter table @.known_crontabs enable row level security;"]]

def m000009 : Script where
  stmts := [["drop function @.get_job(text, text[], interval, text[]);"],
 ["create function @.get_job(
    worker_id text,
    task_identifiers text[] = null,
    job_expiry interval = interval '4 hours',
    forbidden_flags text[] = null,
    now timestamptz = now()
) returns @.jobs as $$
declare
    v_job_id bigint;
    v_queue_name text;
    v_row @.jobs;"] ++ checkWorkerId ++ ["    select jobs.queue_name, jobs.id into v_queue_name, v_job_id
        from @.jobs
        where (jobs.locked_at is null or jobs.locked_at < (now - job_expiry))
        and (
            jobs.queue_name is null
        or
            exists (
                select 1
                from @.job_queues
                where job_queues.queue_name = jobs.queue_name
                and (job_queues.locked_at is null or job_queues.locked_at < (now - job_expiry))
                for update
                skip locked
            )
        )
        and run_at <= now"] ++ attemptable ++ ["        and (forbidden_flags is null or (flags ?| forbidden_flags) is not true)"] ++ lockSelected ++ ["            set
                locked_by = worker_id,
                locked_at = now
            where job_queues.queue_name = v_queue_name;
    end if;

    update @.jobs
        set
            attempts = attempts + 1,
            locked_by = worker_id,
            locked_at = now
        where id = v_job_id
        returning * into v_row;

    return v_row;
end;
$$ language plpgsql volatile;"]]

def m000010 : Script where
  stmts := [["alter table @.jobs alter column queue_name drop default;"]]

def m000011 : Script where
  stmts := [["lock table @.jobs;"],
 ["lock table @.job_queues;"],
 ["select 1/(case when exists (
    select 1
    from @.jobs
    where locked_at is not null
    and locked_at > NOW() - interval '4 hours'
) then 0 else 1 end);"],
 ["alter table @.jobs
alter column attempts type int2,
alter column max_attempts type int2,
alter column priority type int2;"],
 ["drop function @.complete_job;"],
 ["drop function @.fail_job;"],
 ["drop function @.get_job;"],
 ["drop trigger _900_notify_worker on @.jobs;"],
 ["drop function @.add_job;"],
 ["drop function @.complete_jobs;"],
 ["drop function @.permanently_fail_jobs;"],
 ["drop function @.remove_job;"],
 ["drop function @.reschedule_jobs;"],
 ["drop function @.tg_jobs__notify_new_jobs;"],
 ["alter table @.jobs rename to jobs_legacy;"],
 ["alter table @.job_queues rename to job_queues_legacy;"],
 ["create table @.job_queues (
    id int primary key generated always as identity,
    queue_name text not null unique check (length(queue_name) <= 128),
    locked_at timestamptz,
    locked_by text,
    is_available boolean generated always as ((locked_at is null)) stored not null
);"],
 ["alter table @.job_queues enable row level security;"],
 ["create table @.tasks (
    id int primary key generated always as identity,
    identifier text not null unique check (length(identifier) <= 128)
);"],
 ["alter table @.tasks enable row level security;"],
 ["create table @.jobs (
    id bigint primary key generated always as identity,
    job_queue_id int null, -- not adding 'references' to eke out more performance
    task_id int not null,
    payload json default '\x7b\x7d'::json not null,
    priority smallint default 0 not null,
    run_at timestamptz default now() not null,
    attempts smallint default 0 not null,
    max_attempts smallint default 25 not null constraint jobs_max_attempts_check check (max_attempts >= 1),
    last_error text,
    created_at timestamptz default now() not null,
    updated_at timestamptz default now() not null,
    key text unique constraint jobs_key_check check (length(key) > 0 and length(key) <= 512),
    locked_at timestamptz,
    locked_by text,
    revision integer default 0 not null,
    flags jsonb,
    is_available boolean generated always as (((locked_at is null) and (attempts < max_attempts))) stored not null
);"],
 ["alter table @.jobs enable row level security;"],
 ["create index jobs_main_index
    on @.jobs
    using btree (priority, run_at)
    include (id, task_id, job_queue_id)
    where (is_available = true);"],
 ["create index jobs_no_queue_index
    on @.jobs
    using btree (priority, run_at)
    include (id, task_id)
    where (is_available = true and job_queue_id is null);"],
 ["create type @.job_spec as (
    identifier text,
    payload json,
    queue_name text,
    run_at timestamptz,
    max_attempts integer,
    job_key text,
    priority integer,
    flags text[]
);"],
 ["create function @.add_jobs("] ++ addJobsBody ++ ["        from unnest(specs) spec
        inner join @.tasks
        on tasks.identifier = spec.identifier
        left join @.job_queues
        on job_queues.queue_name = spec.queue_name
    on conflict (key) do update set
        job_queue_id = excluded.job_queue_id,
        task_id = excluded.task_id,
        payload = excluded.payload,"] ++ keepRunAt ++ ["        -- always reset error/retry state"] ++ addJobsReset ++ ["$$ language plpgsql;"],
 ["create function @.complete_jobs(job_ids bigint[])
returns setof @.jobs
as $$
    delete from @.jobs
        where id = any(job_ids)
        and (
            locked_at is null
            or
            locked_at < now() - interval '4 hours'
        )
    returning *;
$$ language sql;"],
 ["create function @.remove_job(job_key text)
returns @.jobs
as $$
declare
    v_job @.jobs;
begin
    -- Delete job if not locked
    delete from @.jobs
        where key = job_key
        and (
            locked_at is null
            or
            locked_at < NOW() - interval '4 hours'
        )
        returning * into v_job;
    if not (v_job is null) then
        return v_job;
    end if;
    -- Otherwise prevent job from retrying, and clear the key
    update @.jobs
    set
        key = null,
        attempts = jobs.max_attempts,
        updated_at = now()
    where key = job_key
    returning * into v_job;
    return v_job;
end;
$$ language plpgsql strict;"],
 ["create function @.reschedule_jobs(
    job_ids bigint[],
    run_at timestamp with time zone default null::timestamp with time zone,
    priority integer default null::integer,
    attempts integer default null::integer,
    max_attempts integer default null::integer
) returns setof @.jobs
as $$"] ++ rescheduleBody ++ ["            max_attempts = coalesce(reschedule_jobs.max_attempts, jobs.max_attempts),
            updated_at = now()
        where id = any(job_ids)
        and (
            locked_at is null
            or
            locked_at < NOW() - interval '4 hours'
        )
        returning *;
$$ language sql;"],
 ["create function @.tg_jobs__after_insert() returns trigger
as $$
begin
    perform pg_notify('jobs:insert', '');
    return new;
end;
$$ language plpgsql;"],
 ["create trigger _900_after_insert
after insert on @.jobs
for each statement
execute procedure @.tg_jobs__after_insert();"],
 ["create function @.add_job(
    identifier text,
    payload json default null::json,
    queue_name text default null::text,
    run_at timestamp with time zone default null::timestamp with time zone,
    max_attempts integer default null::integer,
    job_key text default null::text,
    priority integer default null::integer,
    flags text[] default null::text[],
    job_key_mode text default 'replace'::text
) returns @.jobs as $$"] ++ addJobDelegates ++ ["
        -- Ensure all the queues exist
        if add_job.queue_name is not null then
            insert into @.job_queues (queue_name)
            values (add_job.queue_name)
            on conflict do nothing;
        end if;
"] ++ dedupeInsert ++ ["$$ language plpgsql;"],
 ["insert into @.job_queues (queue_name)
select distinct queue_name
from @.jobs_legacy
where queue_name is not null
on conflict do nothing;"],
 ["insert into @.tasks (identifier)
select distinct task_identifier
from @.jobs_legacy
on conflict do nothing;"],
 ["insert into @.jobs (
    job_queue_id,
    task_id,
    payload,
    priority,
    run_at,
    attempts,
    max_attempts,
    last_error,
    created_at,
    updated_at,
    key,
    revision,
    flags
)
    select
        job_queues.id,
        tasks.id,
        legacy.payload,
        legacy.priority,
        legacy.run_at,
        legacy.attempts,
        legacy.max_attempts,
        legacy.last_error,
        legacy.created_at,
        legacy.updated_at,
        legacy.key,
        legacy.revision,
        legacy.flags
    from @.jobs_legacy legacy
    inner join @.tasks
    on tasks.identifier = legacy.task_identifier
    left join @.job_queues
    on job_queues.queue_name = legacy.queue_name;"],
 ["drop table @.jobs_legacy;"],
 ["drop table @.job_queues_legacy;"]]

def m000012 : Script where
  stmts := [["create or replace function @.add_jobs("] ++ addJobsBody ++ ["            from unnest(specs) spec
            inner join @.tasks
            on tasks.identifier = spec.identifier
            left join @.job_queues
            on job_queues.queue_name = spec.queue_name
        on conflict (key) do update set
            job_queue_id = excluded.job_queue_id,
            task_id = excluded.task_id,
            payload =
                case
                when json_typeof(jobs.payload) = 'array' and json_typeof(excluded.payload) = 'array' then
                    (jobs.payload::jsonb || excluded.payload::jsonb)::json
                else
                    excluded.payload
                end,
            max_attempts = excluded.max_attempts,
            run_at = (case
              when job_key_preserve_run_at is true and jobs.attempts = 0 then jobs.run_at
              else excluded.run_at
            end),
            priority = excluded.priority,
            revision = jobs.revision + 1,
            flags = excluded.flags,
            -- always reset error/retry state
            attempts = 0,
            last_error = null,
            updated_at = now()
        where jobs.locked_at is null
        returning *;
end;
$$ language plpgsql;"]]

def m000013 : Script where
  stmts := [["alter type @.job_spec alter attribute max_attempts type smallint;"],
 ["alter type @.job_spec alter attribute priority type smallint;"],
 ["drop function @.add_job;"],
 ["CREATE FUNCTION @.add_job(identifier text, payload json DEFAULT NULL::json, queue_name text DEFAULT NULL::text, run_at timestamp with time zone DEFAULT NULL::timestamp with time zone, max_attempts smallint DEFAULT NULL::smallint, job_key text DEFAULT NULL::text, priority smallint DEFAULT NULL::smallint, flags text[] DEFAULT NULL::text[], job_key_mode text DEFAULT 'replace'::text) RETURNS @.jobs
    LANGUAGE plpgsql
    AS $$"] ++ addJobDelegates ++ ["        -- Ensure all the queues exist
        if add_job.queue_name is not null then
          insert into @.job_queues (queue_name)
          values (add_job.queue_name)
          on conflict do nothing;
        end if;"] ++ dedupeInsert ++ ["$$;"]]

end GraphileWorker.Migrations.Scripts
